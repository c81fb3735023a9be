/-
  QueryClient/Proofs/CommandLine/Arguments.lean
  =============================================
  **Arguments are read for what they ask for.** The reading accepts the command lines that
  ask for options, and takes each for the options that it asks for (`parse_eq_ok_iff`). It
  ends with a text about the program where the arguments ask for one (`parse_eq_error_iff`).
  All others are wrong.

  From left to right, `Reading.From` says which words a reading has come from, and one more
  argument keeps it up (`Reading.From.take`). The other way round, words that are written out
  are read again (`Reading.foldlM_take_of_spells`).
-/
import QueryClient.Proofs.CommandLine.Words

namespace QueryClient.CommandLine

/-! ### Forms of arguments -/

namespace Argument

/-- The text of an argument. -/
def text : Argument → String
  | .dashes => "--"
  | .long name none => "--" ++ name
  | .long name (some value) => "--" ++ name ++ "=" ++ value
  | .short letters => "-" ++ String.ofList letters
  | .plain s => s

theorem text_splitValue (cs : List Char) :
    (Argument.long (splitValue cs).1 (splitValue cs).2).text = "--" ++ String.ofList cs := by
  have hcs : cs.takeWhile (· != '=') ++ cs.dropWhile (· != '=') = cs :=
    List.takeWhile_append_dropWhile
  unfold splitValue
  split
  · rename_i hrest
    rw [hrest, List.append_nil] at hcs
    rw [text, hcs]
  · rename_i c value hrest
    have hc : c = '=' := by
      have hne : cs.dropWhile (· != '=') ≠ [] := by simp [hrest]
      simpa [hrest] using List.head_dropWhile_not (· != '=') hne
    subst hc
    rw [hrest] at hcs
    apply String.toList_injective
    simp [text, hcs]

theorem text_ofString (s : String) : (ofString s).text = s := by
  unfold ofString
  split
  · rename_i hs
    exact String.toList_injective hs.symm
  · rename_i cs _ hs
    rw [text_splitValue]
    apply String.toList_injective
    simp [hs]
  · rename_i c cs _ hs
    apply String.toList_injective
    simp [text, hs]
  · rfl

theorem ofString_of_letter {a : String} {c : Char} (hc : c ≠ '-') (h : ['-', c] <+: a.toList) :
    ∃ letters, ofString a = .short (c :: letters) := by
  obtain ⟨letters, ha⟩ := h
  have ha : a.toList = '-' :: c :: letters := ha.symm
  refine ⟨letters, ?_⟩
  unfold ofString
  rw [ha]
  split
  · rename_i hs
    cases hs
    exact absurd rfl hc
  · rename_i hs
    cases hs
    exact absurd rfl hc
  · rename_i hs
    cases hs
    rfl
  · rename_i hshort
    exact absurd rfl (hshort c letters)

theorem ofString_eq_plain_iff {a : String} : ofString a = .plain a ↔ IsPlain a := by
  -- the dash alone is none of the three forms of options
  have hdash {c : Char} {cs : List Char} (ha : a.toList = '-' :: c :: cs) : ¬IsPlain a := by
    rintro (rfl | hhead)
    · cases ha
    · simp [ha] at hhead
  unfold ofString
  split
  · rename_i ha
    simpa using hdash ha
  · rename_i cs _ ha
    simpa using hdash ha
  · rename_i c cs _ ha
    simpa using hdash ha
  · rename_i hdashes hlong hshort
    refine iff_of_true rfl ?_
    rw [IsPlain, or_iff_not_imp_right, not_not]
    intro hhead
    cases ha : a.toList with
    | nil => simp [ha] at hhead
    | cons c cs =>
      obtain rfl : c = '-' := by simpa [ha] using hhead
      cases cs with
      | nil => exact String.toList_injective ha
      | cons d ds => exact absurd ha (hshort d ds)

end Argument

/-! ### Words that are read -/

namespace Reading

variable {o : Options} {a : String}

/-- Between two words. -/
def between (o : Options) : Reading := ⟨o, none, false⟩

theorem take_long {name : String} {value? : Option String}
    (h : Argument.ofString a = .long name value?) :
    (between o).take a = (between o).takeLong name value? := by
  simp [take, between, h]

theorem take_short {letters : List Char} (h : Argument.ofString a = .short letters) :
    (between o).take a = (between o).takeShort letters := by
  simp [take, between, h]

theorem take_flag {option : PathOption} (h : option.IsFlag a) :
    (between o).take a = .ok ⟨o, some option, false⟩ := by
  rcases h with rfl | rfl <;> cases option <;> rfl

theorem take_switch (s : Switch) :
    (between o).take s.long = (o.add (.switch s)).map between := by
  cases s <;> rfl

theorem take_equals {option : PathOption} (h : option.IsFlag a) (path : String) :
    (between o).take (a ++ "=" ++ path) = (o.add (.path option path)).map between := by
  rcases h with rfl | rfl
  · cases option with
    | input =>
      have hform : Argument.ofString ("--input" ++ "=" ++ path) = .long "input" (some path) := by
        simp [Argument.ofString, splitValue]
      exact take_long hform
    | output =>
      have hform : Argument.ofString ("--output" ++ "=" ++ path) = .long "output" (some path) := by
        simp [Argument.ofString, splitValue]
      exact take_long hform
  · have hpath : attachedPath? ('=' :: path.toList) = some path := by simp [attachedPath?]
    cases option with
    | input =>
      have hform : Argument.ofString ("-i" ++ "=" ++ path) =
          .short ('i' :: '=' :: path.toList) := by
        simp [Argument.ofString]
      rw [PathOption.short, take_short hform, takeShort, hpath]
      rfl
    | output =>
      have hform : Argument.ofString ("-o" ++ "=" ++ path) =
          .short ('o' :: '=' :: path.toList) := by
        simp [Argument.ofString]
      rw [PathOption.short, take_short hform, takeShort, hpath]
      rfl

theorem take_attached {option : PathOption} {path : String} (hpath : path ≠ "")
    (hother : path.toList.head? ≠ some '=') :
    (between o).take (option.short ++ path) = (o.add (.path option path)).map between := by
  have hattached : attachedPath? path.toList = some path := by
    unfold attachedPath?
    split
    · rename_i hnil
      exact absurd (String.toList_eq_nil_iff.mp hnil) hpath
    · rename_i cs hcs
      simp [hcs] at hother
    · simp
  cases option with
  | input =>
    have hform : Argument.ofString ("-i" ++ path) = .short ('i' :: path.toList) := by
      simp [Argument.ofString]
    rw [PathOption.short, take_short hform, takeShort, hattached]
    rfl
  | output =>
    have hform : Argument.ofString ("-o" ++ path) = .short ('o' :: path.toList) := by
      simp [Argument.ofString]
    rw [PathOption.short, take_short hform, takeShort, hattached]
    rfl

theorem take_path {option : PathOption} {path : String} (h : IsPlain path) :
    take ⟨o, some option, false⟩ path = (o.add (.path option path)).map between := by
  simp [take, Argument.ofString_eq_plain_iff.mpr h]
  rfl

/-- **A word that is written out is read.** -/
theorem foldlM_take_of_spelled {w : Word} {piece : List String} (h : w.Spelled piece) :
    piece.foldlM take (between o) = (o.add w).map between := by
  cases h with
  | apart flag plain =>
    rw [List.foldlM_cons, take_flag flag]
    exact (bind_pure _).trans (take_path plain)
  | equals flag => exact (bind_pure _).trans (take_equals flag _)
  | attached there other => exact (bind_pure _).trans (take_attached there other)
  | switch s => exact (bind_pure _).trans (take_switch s)

theorem foldlM_take_of_spells {words : List Word} {arguments : List String}
    (h : Spells words arguments) :
    arguments.foldlM take start = (words.foldlM Options.add .none).map between := by
  induction h with
  | nil => rfl
  | @concat words w arguments piece before word ih =>
    rw [List.foldlM_append, List.foldlM_append, ih]
    cases words.foldlM Options.add .none with
    | error stop => rfl
    | ok o =>
      have hadd : [w].foldlM Options.add o = o.add w := bind_pure _
      change piece.foldlM take (between o) = ([w].foldlM Options.add o).map between
      rw [hadd, foldlM_take_of_spelled word]

/-! ### Arguments that are taken -/

/-- What one argument comes to between two words. -/
inductive Took (o : Options) : String → Reading → Prop where
  | word {w : Word} {o' : Options} {a : String} (spelled : w.Spelled [a])
      (add : o.add w = .ok o') : Took o a (between o')
  | flag {option : PathOption} {a : String} (flag : option.IsFlag a) :
      Took o a ⟨o, some option, false⟩
  | dashes : Took o "--" ⟨o, none, true⟩

variable {r : Reading}

theorem took_of_map {w : Word} (hspelled : w.Spelled [a])
    (h : (o.add w).map between = .ok r) : Took o a r := by
  obtain ⟨o', hadd, rfl⟩ := map_eq_ok_iff.mp h
  exact .word hspelled hadd

theorem took_of_takeLong {name : String} {value? : Option String}
    (h : (between o).takeLong name value? = .ok r) :
    Took o (Argument.long name value?).text r := by
  have hpath (option : PathOption) (hname : option.long = "--" ++ name)
      (h : (between o).takePath option value? = .ok r) :
      Took o (Argument.long name value?).text r := by
    cases value? with
    | none =>
      cases h
      exact .flag (Or.inl hname.symm)
    | some path =>
      rw [Argument.text, ← hname]
      exact took_of_map (.equals (Or.inl rfl)) h
  unfold takeLong at h
  split at h
  · exact hpath .input rfl h
  · exact hpath .output rfl h
  · exact took_of_map (.switch .json) h
  · exact took_of_map (.switch .dryRun) h
  · cases h
  · cases h
  · cases h

theorem took_of_takeShort {letters : List Char}
    (h : (between o).takeShort letters = .ok r) :
    Took o (Argument.short letters).text r := by
  have hpath (option : PathOption) {c : Char} {cs : List Char}
      (hletter : option.short = "-" ++ String.singleton c)
      (h : (between o).takePath option (attachedPath? cs) = .ok r) :
      Took o (Argument.short (c :: cs)).text r := by
    have htext : (Argument.short (c :: cs)).text = option.short ++ String.ofList cs := by
      apply String.toList_injective
      simp [Argument.text, hletter]
    rw [htext]
    unfold attachedPath? at h
    split at h
    · cases h
      exact .flag (Or.inr (by simp))
    · rename_i path
      have hequals : option.short ++ String.ofList ('=' :: path) =
          option.short ++ "=" ++ String.ofList path := by
        apply String.toList_injective
        simp
      rw [hequals]
      exact took_of_map (.equals (Or.inr rfl)) h
    · rename_i hnil hequals
      refine took_of_map (.attached ?_ ?_) h
      · simpa using hnil
      · intro hhead
        rw [String.toList_ofList, List.head?_eq_some_iff] at hhead
        obtain ⟨path, hpath⟩ := hhead
        exact hequals path hpath
  unfold takeShort at h
  split at h
  · exact hpath .input rfl h
  · exact hpath .output rfl h
  · cases h
  · cases h
  · cases h

theorem took_of_take (h : (between o).take a = .ok r) : Took o a r := by
  have htext := Argument.text_ofString a
  unfold take at h
  split at h
  · cases h
  · split at h
    · rename_i hwaiting
      cases hwaiting
    · cases h
    · cases h
    · rename_i hform hwaiting
      cases h
      rw [hform] at htext
      subst htext
      exact .dashes
    · rename_i name value? hform hwaiting
      rw [hform] at htext
      subst htext
      exact took_of_takeLong h
    · rename_i letters hform hwaiting
      rw [hform] at htext
      subst htext
      exact took_of_takeShort h

/-- An option that waits for its path takes nothing but a path. -/
theorem of_take_waiting {option : PathOption} (h : take ⟨o, some option, false⟩ a = .ok r) :
    IsPlain a ∧ ∃ o', o.add (.path option a) = .ok o' ∧ r = between o' := by
  have hplain : IsPlain a := by
    have htext := Argument.text_ofString a
    unfold take at h
    split at h
    · cases h
    · split at h
      · rename_i path _ hform hwaiting
        rw [hform] at htext
        obtain rfl : path = a := htext
        exact Argument.ofString_eq_plain_iff.mp hform
      · cases h
      all_goals
        rename_i hwaiting
        cases hwaiting
  rw [take_path hplain] at h
  exact ⟨hplain, map_eq_ok_iff.mp h⟩

/-! ### Arguments that end the reading -/

variable {stop : Stop}

theorem eq_usage_of_takePath {option : PathOption} {path? : Option String}
    (h : r.takePath option path? = .error stop) : stop = .usage := by
  cases path? with
  | none => cases h
  | some path =>
    exact Options.add_eq_error (o := r.options) (w := .path option path) (map_eq_error_iff.mp h)

theorem asks_of_takeLong {name : String} {value? : Option String}
    (h : r.takeLong name value? = .error stop) (hstop : stop ≠ .usage) :
    stop.Asks (Argument.long name value?).text := by
  unfold takeLong at h
  split at h
  · exact absurd (eq_usage_of_takePath h) hstop
  · exact absurd (eq_usage_of_takePath h) hstop
  · exact absurd (Options.add_eq_error (w := .switch .json) (map_eq_error_iff.mp h)) hstop
  · exact absurd (Options.add_eq_error (w := .switch .dryRun) (map_eq_error_iff.mp h)) hstop
  · cases h
    exact .help
  · cases h
    exact .version
  · cases h
    exact absurd rfl hstop

theorem asks_of_takeShort {letters : List Char} (h : r.takeShort letters = .error stop)
    (hstop : stop ≠ .usage) : stop.Asks (Argument.short letters).text := by
  unfold takeShort at h
  split at h
  · exact absurd (eq_usage_of_takePath h) hstop
  · exact absurd (eq_usage_of_takePath h) hstop
  · cases h
    exact .helpLetter (by simp [Argument.text])
  · cases h
    exact .versionLetter (by simp [Argument.text])
  · cases h
    exact absurd rfl hstop

/-- Only between two words does an argument ask for a text. -/
theorem asks_of_take (h : r.take a = .error stop) (hstop : stop ≠ .usage) :
    (∃ o, r = between o) ∧ stop.Asks a := by
  have htext := Argument.text_ofString a
  obtain ⟨o, waiting?, ended⟩ := r
  have husage : Except.error stop ≠ (Except.error Stop.usage : Except Stop Reading) := by
    simpa using hstop
  unfold take at h
  split at h
  · exact absurd h.symm husage
  · rename_i hended
    have hended : ended = false := by simpa using hended
    subst hended
    split at h
    · exact absurd (Options.add_eq_error (w := .path _ _) (map_eq_error_iff.mp h)) hstop
    · exact absurd h.symm husage
    · exact absurd h.symm husage
    · cases h
    · rename_i name value? hform hwaiting
      obtain rfl : waiting? = none := hwaiting
      rw [hform] at htext
      subst htext
      exact ⟨⟨o, rfl⟩, asks_of_takeLong h hstop⟩
    · rename_i letters hform hwaiting
      obtain rfl : waiting? = none := hwaiting
      rw [hform] at htext
      subst htext
      exact ⟨⟨o, rfl⟩, asks_of_takeShort h hstop⟩

theorem take_of_asks (h : stop.Asks a) : (between o).take a = .error stop := by
  cases h with
  | help => rfl
  | helpLetter letter =>
    obtain ⟨letters, hform⟩ := Argument.ofString_of_letter (by decide) letter
    exact take_short hform
  | version => rfl
  | versionLetter letter =>
    obtain ⟨letters, hform⟩ := Argument.ofString_of_letter (by decide) letter
    exact take_short hform

/-! ### Readings -/

/-- The words that a reading has come from, with the option that still waits for its path, or
    with the two dashes. -/
inductive From : Reading → List String → Prop where
  | words {words : List Word} {o : Options} {arguments : List String}
      (spells : Spells words arguments) (holds : o.Holds words) : From (between o) arguments
  | flag {words : List Word} {o : Options} {arguments : List String} {option : PathOption}
      {a : String} (spells : Spells words arguments) (holds : o.Holds words)
      (flag : option.IsFlag a) : From ⟨o, some option, false⟩ (arguments ++ [a])
  | dashes {words : List Word} {o : Options} {arguments : List String}
      (spells : Spells words arguments) (holds : o.Holds words) :
      From ⟨o, none, true⟩ (arguments ++ ["--"])

variable {arguments : List String} {r' : Reading}

/-- **One more argument.** -/
theorem From.take (h : From r arguments) (htake : r.take a = .ok r') :
    From r' (arguments ++ [a]) := by
  cases h with
  | words spells holds =>
    cases took_of_take htake with
    | word spelled add => exact .words (spells.concat spelled) (holds.add add)
    | flag flag => exact .flag spells holds flag
    | dashes => exact .dashes spells holds
  | flag spells holds flag =>
    obtain ⟨hplain, o', hadd, rfl⟩ := of_take_waiting htake
    rw [List.append_assoc]
    exact .words (spells.concat (.apart flag hplain)) (holds.add hadd)
  | dashes => cases htake

theorem from_of_foldlM (h : arguments.foldlM take start = .ok r) : From r arguments := by
  induction arguments using List.reverseRecOn generalizing r with
  | nil =>
    cases h
    exact .words .nil Options.holds_none
  | append_singleton arguments a ih =>
    obtain ⟨r, hfront, htake⟩ := foldlM_concat_eq_ok_iff.mp h
    exact (ih hfront).take htake

theorem foldlM_take_of_holds {words : List Word} (hspells : Spells words arguments)
    (hholds : o.Holds words) : arguments.foldlM take start = .ok (between o) := by
  rw [foldlM_take_of_spells hspells, Options.foldlM_eq_ok_iff.mpr hholds]
  rfl

end Reading

/-! ### What is read -/

variable {arguments : List String} {o : Options} {stop : Stop}

/-- **Options are read where they are asked for.** -/
theorem parse_eq_ok_iff : parse arguments = .ok o ↔ o.AskedBy arguments := by
  constructor
  · intro h
    unfold parse at h
    split at h
    · cases h
    · rename_i r hread
      split at h
      · cases h
      · rename_i hwaiting
        cases h
        cases Reading.from_of_foldlM hread with
        | words spells holds => exact ⟨_, _, spells, holds, .inl rfl⟩
        | flag spells holds flag => exact absurd rfl hwaiting
        | dashes spells holds => exact ⟨_, _, spells, holds, .inr rfl⟩
  · rintro ⟨words, front, hspells, hholds, rfl | rfl⟩
    · rw [parse, Reading.foldlM_take_of_holds hspells hholds]
      rfl
    · rw [parse, List.foldlM_append, Reading.foldlM_take_of_holds hspells hholds]
      rfl

/-- **A text about the program comes of the arguments that ask for it.** -/
theorem parse_eq_error_iff (hstop : stop ≠ .usage) :
    parse arguments = .error stop ↔ stop.AskedBy arguments := by
  constructor
  · intro h
    unfold parse at h
    split at h
    · rename_i stop' hread
      cases h
      obtain ⟨front, a, rest, r, rfl, hfront, htake⟩ := foldlM_eq_error_iff.mp hread
      obtain ⟨⟨o, rfl⟩, hasks⟩ := Reading.asks_of_take htake hstop
      generalize hr : Reading.between o = r at hfront
      cases Reading.from_of_foldlM hfront with
      | words spells holds => exact ⟨_, front, a, rest, spells, ⟨_, holds⟩, hasks, rfl⟩
      | flag spells holds flag => cases hr
      | dashes spells holds => cases hr
    · split at h
      · cases h
        exact absurd rfl hstop
      · cases h
  · rintro ⟨words, front, a, rest, hspells, ⟨o, hholds⟩, hasks, rfl⟩
    have hread : (front ++ a :: rest).foldlM Reading.take .start = .error stop :=
      foldlM_eq_error_iff.mpr ⟨front, a, rest, _, rfl,
        Reading.foldlM_take_of_holds hspells hholds, Reading.take_of_asks hasks⟩
    rw [parse, hread]

/-- What stands behind the letter is not looked at, nor are further arguments. -/
example : Stop.help.AskedBy ["--json", "-o", "q", "-hx", "--json"] :=
  (parse_eq_error_iff (by decide)).mp (by decide +kernel)

end QueryClient.CommandLine
