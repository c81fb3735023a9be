/-
  QueryClient/Proofs/CommandLine/Words.lean
  =========================================
  **What a command line asks for.** It is a row of words: an option with its path, or a
  switch. A word is written as one argument or as two (`Word.Spelled`), no option stands in
  the row twice, and two dashes may close it. The words say what the options are
  (`Options.AskedBy`). A text about the program is asked for by one argument, with nothing
  but words in front of it (`Stop.AskedBy`).

  Taken one after the other, words that are each about another option are all taken, and the
  options that come of it hold what they say (`Options.foldlM_eq_ok_iff`). How the words are
  written makes no difference to that.
-/
import Mathlib.Data.List.Induction
import Mathlib.Data.List.Nodup
import QueryClient.CommandLine
import QueryClient.Proofs.Traversal

namespace QueryClient.CommandLine

/-! ### Words -/

namespace PathOption

def long : PathOption → String
  | .input => "--input"
  | .output => "--output"

def short : PathOption → String
  | .input => "-i"
  | .output => "-o"

/-- The option by itself: its path is the next argument. -/
def IsFlag (option : PathOption) (a : String) : Prop := a = option.long ∨ a = option.short

end PathOption

/-- An option without a path. -/
inductive Switch where
  | json
  | dryRun
deriving DecidableEq, Repr

def Switch.long : Switch → String
  | .json => "--json"
  | .dryRun => "--dry-run"

/-- What a command line says about one option. -/
inductive Word where
  | path (option : PathOption) (path : String)
  | switch (s : Switch)
deriving DecidableEq, Repr

/-- No argument that starts with a dash can be a path, but for the dash alone. -/
def IsPlain (a : String) : Prop := a = "-" ∨ a.toList.head? ≠ some '-'

namespace Word

/-- The option that a word is about. -/
def subject : Word → PathOption ⊕ Switch
  | .path option _ => .inl option
  | .switch s => .inr s

/-- How a word is written. The path of an option is an argument by itself, or stands behind an
    equals sign, or right behind the letter of the option. -/
inductive Spelled : Word → List String → Prop where
  | apart {option : PathOption} {a path : String} (flag : option.IsFlag a)
      (plain : IsPlain path) : Spelled (.path option path) [a, path]
  | equals {option : PathOption} {a path : String} (flag : option.IsFlag a) :
      Spelled (.path option path) [a ++ "=" ++ path]
  | attached {option : PathOption} {path : String} (there : path ≠ "")
      (other : path.toList.head? ≠ some '=') : Spelled (.path option path) [option.short ++ path]
  | switch (s : Switch) : Spelled (.switch s) [s.long]

end Word

/-- The words, one after the other, are the arguments. -/
inductive Spells : List Word → List String → Prop where
  | nil : Spells [] []
  | concat {words : List Word} {w : Word} {arguments piece : List String}
      (before : Spells words arguments) (word : w.Spelled piece) :
      Spells (words ++ [w]) (arguments ++ piece)

/-! ### What is asked for -/

namespace Options

/-- The path that an option was given. -/
def path? (o : Options) : PathOption → Option String
  | .input => o.input?
  | .output => o.output?

/-- Was a switch given? -/
def has (o : Options) : Switch → Bool
  | .json => o.json
  | .dryRun => o.dryRun

/-- The options are what the words say, each about another option. -/
structure Holds (o : Options) (words : List Word) : Prop where
  path : ∀ option path, o.path? option = some path ↔ Word.path option path ∈ words
  switch : ∀ s, o.has s = true ↔ Word.switch s ∈ words
  once : (words.map Word.subject).Nodup
  nonempty : ∀ option, Word.path option "" ∉ words

/-- The words that the arguments are written from say what the options are. -/
def AskedBy (o : Options) (arguments : List String) : Prop :=
  ∃ words front, Spells words front ∧ o.Holds words ∧
    (arguments = front ∨ arguments = front ++ ["--"])

end Options

/-- An argument asks for a text about the program. -/
inductive Stop.Asks : Stop → String → Prop where
  | help : Asks .help "--help"
  | helpLetter {a : String} (letter : "-h".toList <+: a.toList) : Asks .help a
  | version : Asks .version "--version"
  | versionLetter {a : String} (letter : "-V".toList <+: a.toList) : Asks .version a

/-- An argument asks for a text, and those in front of it are words. -/
def Stop.AskedBy (stop : Stop) (arguments : List String) : Prop :=
  ∃ words front a rest, Spells words front ∧ (∃ o : Options, o.Holds words) ∧ stop.Asks a ∧
    arguments = front ++ a :: rest

theorem Stop.AskedBy.ne_usage {stop : Stop} {arguments : List String}
    (h : stop.AskedBy arguments) : stop ≠ .usage := by
  obtain ⟨-, -, a, -, -, -, hasks, -⟩ := h
  rintro rfl
  cases hasks

namespace Options

variable {o o' : Options} {words : List Word} {w : Word}

/-! ### Words that are taken -/

/-- Nothing has been said about the option yet. -/
def IsFree (o : Options) : PathOption ⊕ Switch → Prop
  | .inl option => o.path? option = .none
  | .inr s => o.has s = false

/-- Take a word. -/
def add (o : Options) : Word → Except Stop Options
  | .path option path => o.setPath option path
  | .switch .json => o.setJson
  | .switch .dryRun => o.setDryRun

/-- The options with what a word says. -/
def give (o : Options) : Word → Options
  | .path .input path => { o with input? := some path }
  | .path .output path => { o with output? := some path }
  | .switch .json => { o with json := true }
  | .switch .dryRun => { o with dryRun := true }

/-- What it takes for a word to be taken. -/
structure Fits (o : Options) (w : Word) : Prop where
  free : o.IsFree w.subject
  nonempty : ∀ option, Word.path option "" ≠ w

theorem add_of_fits (h : o.Fits w) : o.add w = .ok (o.give w) := by
  obtain ⟨hfree, hnonempty⟩ := h
  cases w with
  | path option path =>
    have hpath : path ≠ "" := by
      rintro rfl
      exact hnonempty option rfl
    cases option with
    | input =>
      have hnone : o.input? = .none := hfree
      simp [add, setPath, give, hpath, hnone]
    | output =>
      have hnone : o.output? = .none := hfree
      simp [add, setPath, give, hpath, hnone]
  | switch s =>
    cases s with
    | json =>
      have hfalse : o.json = false := hfree
      simp [add, setJson, give, hfalse]
    | dryRun =>
      have hfalse : o.dryRun = false := hfree
      simp [add, setDryRun, give, hfalse]

theorem add_of_not_fits (h : ¬o.Fits w) : o.add w = .error .usage := by
  cases w with
  | path option path =>
    by_cases hpath : path = ""
    · exact if_pos hpath
    · have hheld : ¬o.path? option = .none := fun hfree => h ⟨hfree, by simp [Ne.symm hpath]⟩
      have hsome : (o.path? option).isSome = true := Option.isSome_iff_ne_none.mpr hheld
      cases option <;> exact (if_neg hpath).trans (if_pos hsome)
  | switch s =>
    have hheld : o.has s = true := by
      rw [← Bool.not_eq_false]
      exact fun hfree => h ⟨hfree, by simp⟩
    cases s <;> exact if_pos hheld

theorem add_eq_ok_iff : o.add w = .ok o' ↔ o.Fits w ∧ o' = o.give w := by
  by_cases h : o.Fits w
  · simp [add_of_fits h, h, eq_comm]
  · simp [add_of_not_fits h, h]

theorem add_eq_error {stop : Stop} (h : o.add w = .error stop) : stop = .usage := by
  by_cases hfits : o.Fits w
  · rw [add_of_fits hfits] at h
    cases h
  · rw [add_of_not_fits hfits] at h
    cases h
    rfl

theorem path?_give (h : o.IsFree w.subject) (option : PathOption) (path : String) :
    (o.give w).path? option = some path ↔
      o.path? option = some path ∨ Word.path option path = w := by
  cases w with
  | path other path' =>
    have hnone : o.path? other = .none := h
    cases other <;> cases option <;> simp_all [give, path?, eq_comm]
  | switch s => cases s <;> cases option <;> simp [give, path?]

theorem has_give (s : Switch) :
    (o.give w).has s = true ↔ o.has s = true ∨ Word.switch s = w := by
  cases w with
  | path option path => cases option <;> cases s <;> simp [give, has]
  | switch other => cases other <;> cases s <;> simp [give, has]

/-! ### Rows of words -/

theorem Holds.isFree_iff (h : o.Holds words) (subject : PathOption ⊕ Switch) :
    o.IsFree subject ↔ subject ∉ words.map Word.subject := by
  cases subject with
  | inl option =>
    have hnone : o.path? option = .none ↔ ∀ path, Word.path option path ∉ words := by
      rw [Option.eq_none_iff_forall_ne_some]
      exact forall_congr' fun path => not_congr (h.path option path)
    rw [IsFree, hnone, List.mem_map]
    constructor
    · rintro hfree ⟨w, hw, hsubject⟩
      cases w with
      | path other path =>
        cases hsubject
        exact hfree path hw
      | switch s => cases hsubject
    · intro hfree path hmem
      exact hfree ⟨_, hmem, rfl⟩
  | inr s =>
    rw [IsFree, ← Bool.not_eq_true, h.switch, List.mem_map]
    constructor
    · rintro hfree ⟨w, hw, hsubject⟩
      cases w with
      | path option path => cases hsubject
      | switch other =>
        cases hsubject
        exact hfree hw
    · intro hfree hmem
      exact hfree ⟨_, hmem, rfl⟩

/-- The options are all there is to know about the words. -/
theorem Holds.unique (h : o.Holds words) (h' : o'.Holds words) : o = o' := by
  have hpath (option : PathOption) : o.path? option = o'.path? option := by
    apply Option.ext
    intro path
    rw [h.path, h'.path]
  have hswitch (s : Switch) : o.has s = o'.has s := by
    rw [Bool.eq_iff_iff, h.switch, h'.switch]
  have hinput : o.input? = o'.input? := hpath .input
  have houtput : o.output? = o'.output? := hpath .output
  have hjson : o.json = o'.json := hswitch .json
  have hdry : o.dryRun = o'.dryRun := hswitch .dryRun
  cases o
  cases o'
  simp only [mk.injEq]
  exact ⟨hinput, houtput, hjson, hdry⟩

theorem holds_none : Holds .none [] := by
  refine ⟨?_, ?_, List.nodup_nil, by simp⟩
  · intro option path
    cases option <;> simp [none, path?]
  · intro s
    cases s <;> simp [none, has]

/-- **One more word.** -/
theorem Holds.add (h : o.Holds words) (hadd : o.add w = .ok o') : o'.Holds (words ++ [w]) := by
  obtain ⟨⟨hfree, hnonempty⟩, rfl⟩ := add_eq_ok_iff.mp hadd
  refine ⟨?_, ?_, ?_, ?_⟩
  · intro option path
    rw [path?_give hfree, h.path, List.mem_append, List.mem_singleton]
  · intro s
    rw [has_give, h.switch, List.mem_append, List.mem_singleton]
  · rw [List.map_append, List.nodup_append_comm]
    exact List.nodup_cons.mpr ⟨(h.isFree_iff w.subject).mp hfree, h.once⟩
  · intro option hmem
    rcases List.mem_append.mp hmem with hold | hnew
    · exact h.nonempty option hold
    · exact hnonempty option (List.mem_singleton.mp hnew)

theorem holds_of_foldlM (h : words.foldlM Options.add .none = .ok o) : o.Holds words := by
  induction words using List.reverseRecOn generalizing o with
  | nil =>
    cases h
    exact holds_none
  | append_singleton words w ih =>
    obtain ⟨front, hfront, hadd⟩ := foldlM_concat_eq_ok_iff.mp h
    exact (ih hfront).add hadd

/-- Words that are each about another option are taken. -/
theorem exists_foldlM (honce : (words.map Word.subject).Nodup)
    (hnonempty : ∀ option, Word.path option "" ∉ words) :
    ∃ o, words.foldlM Options.add .none = .ok o := by
  induction words using List.reverseRecOn with
  | nil => exact ⟨_, rfl⟩
  | append_singleton words w ih =>
    rw [List.map_append, List.nodup_append_comm] at honce
    obtain ⟨hnew, honce⟩ := List.nodup_cons.mp honce
    obtain ⟨front, hfront⟩ := ih honce fun option hmem =>
      hnonempty option (List.mem_append_left _ hmem)
    have hfree := ((holds_of_foldlM hfront).isFree_iff w.subject).mpr hnew
    have hadd : front.add w = .ok (front.give w) := add_of_fits ⟨hfree, fun option heq =>
      hnonempty option (List.mem_append_right _ (List.mem_singleton.mpr heq))⟩
    exact ⟨_, foldlM_concat_eq_ok_iff.mpr ⟨front, hfront, hadd⟩⟩

theorem foldlM_eq_ok_iff : words.foldlM Options.add .none = .ok o ↔ o.Holds words := by
  constructor
  · exact holds_of_foldlM
  · intro h
    obtain ⟨other, hother⟩ := exists_foldlM h.once h.nonempty
    rw [hother, (holds_of_foldlM hother).unique h]

end Options

/-! ### Switches -/

theorem Word.Spelled.long_mem_iff {w : Word} {piece : List String} (h : w.Spelled piece)
    (s : Switch) : s.long ∈ piece ↔ Word.switch s = w := by
  cases h with
  | @apart option a path flag plain =>
    have hflag : s.long ≠ a := by
      rcases flag with rfl | rfl <;> cases option <;> cases s <;> decide
    have hpath : s.long ≠ path := by
      rintro rfl
      cases s <;> simp [IsPlain, Switch.long] at plain
    simp [hflag, hpath]
  | @equals option a path flag =>
    have hpiece : s.long ≠ a ++ "=" ++ path := by
      rw [ne_eq, ← String.toList_inj]
      rcases flag with rfl | rfl <;> cases option <;> cases s <;>
        simp [Switch.long, PathOption.long, PathOption.short]
    simp [hpiece]
  | @attached option path there other =>
    have hpiece : s.long ≠ option.short ++ path := by
      rw [ne_eq, ← String.toList_inj]
      cases option <;> cases s <;> simp [Switch.long, PathOption.short]
    simp [hpiece]
  | switch s' =>
    rw [List.mem_singleton, Word.switch.injEq]
    cases s <;> cases s' <;> simp [Switch.long]

/-- A switch is among the words if it stands somewhere in the arguments. -/
theorem Spells.long_mem_iff {words : List Word} {arguments : List String}
    (h : Spells words arguments) (s : Switch) :
    s.long ∈ arguments ↔ Word.switch s ∈ words := by
  induction h with
  | nil => simp
  | concat before word ih =>
    rw [List.mem_append, List.mem_append, ih, word.long_mem_iff, List.mem_singleton]

theorem Options.AskedBy.has_iff {o : Options} {arguments : List String} (h : o.AskedBy arguments)
    (s : Switch) : o.has s = true ↔ s.long ∈ arguments := by
  obtain ⟨words, front, hspells, hholds, rfl | rfl⟩ := h
  · rw [hholds.switch, hspells.long_mem_iff]
  · have hdashes : s.long ≠ "--" := by cases s <;> decide
    rw [hholds.switch, List.mem_append, List.mem_singleton, hspells.long_mem_iff]
    simp [hdashes]

end QueryClient.CommandLine
