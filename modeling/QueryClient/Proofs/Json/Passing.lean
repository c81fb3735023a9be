/-
  QueryClient/Proofs/Json/Passing.lean
  ====================================
  **A value that can be read can be passed over.** Whoever passes over a value keeps the open
  lists and objects on a stack; whoever reads its tree goes down into them. The machine with
  the stack gets from in front of a value to behind it, whatever lies on the stack below
  (`passes_readTree`), and needs no more moves than there are bytes.
-/
import QueryClient.Proofs.Json.Tree

namespace QueryClient.Json

variable {α β : Type}

/-! ### Readers that give nothing back -/

/-- What is left is no longer than what there was. -/
def Shrinks (r : Reader α) : Prop :=
  ∀ bs a rest, r bs = .ok (a, rest) → rest.length ≤ bs.length

theorem Shrinks.bind {r : Reader α} {f : α → Reader β} (h : Shrinks r) (hf : ∀ a, Shrinks (f a)) :
    Shrinks (r >>= f) := by
  intro bs b rest hb
  obtain ⟨a, mid, ha, hfa⟩ := bind_eq_ok_iff.mp hb
  exact Nat.le_trans (hf a mid b rest hfa) (h bs a mid ha)

theorem Shrinks.pure (a : α) : Shrinks (pure a : Reader α) := by
  rintro bs _ _ ⟨⟩
  exact Nat.le_refl _

theorem Shrinks.stop (cause : Cause) : Shrinks (Json.stop cause : Reader α) := nofun

theorem Shrinks.stopAtNext (cause : Cause) : Shrinks (Json.stopAtNext cause : Reader α) := nofun

theorem Shrinks.ite {p : Prop} [Decidable p] {r s : Reader α} (h : Shrinks r) (h' : Shrinks s) :
    Shrinks (if p then r else s) := by
  by_cases hp : p
  · rw [if_pos hp]
    exact h
  · rw [if_neg hp]
    exact h'

theorem shrinks_peek : Shrinks peek := by
  rintro bs _ _ ⟨⟩
  exact Nat.le_refl _

theorem shrinks_advance : Shrinks advance := by
  rintro bs _ _ ⟨⟩
  rw [List.length_drop]
  exact Nat.sub_le _ _

theorem shrinks_peekSolid : Shrinks peekSolid := by
  rintro bs _ _ ⟨⟩
  exact (List.dropWhile_sublist _).length_le

theorem shrinks_skipDigits : Shrinks skipDigits := by
  rintro bs _ _ ⟨⟩
  exact (List.dropWhile_sublist _).length_le

theorem shrinks_word (ws : Bytes) : Shrinks (word ws) := by
  induction ws with
  | nil => exact .pure ()
  | cons w ws ih =>
    refine shrinks_peek.bind ?_
    intro b?
    cases b? with
    | none => exact .stop _
    | some b => exact .ite (shrinks_advance.bind fun _ => ih) (.stopAtNext _)

theorem shrinks_hexFour : Shrinks hexFour := by
  intro bs n rest h
  match bs with
  | [] | [_] | [_, _] | [_, _, _] => cases h
  | a :: b :: c :: d :: cs =>
    rw [hexFour] at h
    split at h
    · cases h
      simp only [List.length_cons]
      omega
    · cases h

theorem shrinks_skipEscape : Shrinks skipEscape := by
  refine shrinks_peek.bind ?_
  intro b?
  cases b? with
  | none => exact .stop _
  | some b =>
    refine .ite (shrinks_advance.bind fun _ => ?_) ?_
    · exact shrinks_hexFour.bind fun _ => .pure ()
    · cases shortEscape? b with
      | none => exact .stopAtNext _
      | some v => exact shrinks_advance

theorem shrinks_skipStringFrom (turns : Nat) : Shrinks (skipStringFrom turns) := by
  induction turns with
  | zero => exact .stop _
  | succ turns ih =>
    refine shrinks_peek.bind ?_
    intro b?
    cases b? with
    | none => exact .stop _
    | some b =>
      refine .ite (.stop _) (shrinks_advance.bind fun _ => .ite (.pure ()) (.ite ?_ ih))
      exact shrinks_skipEscape.bind fun _ => ih

theorem shrinks_skipString : Shrinks skipString := fun bs =>
  shrinks_skipStringFrom (bs.length + 1) bs

theorem shrinks_skipExponent : Shrinks skipExponent := by
  have hdigits : Shrinks (do
      let digits ← skipDigits
      if digits = 0 then stopAtNext .badNumber : Reader Unit) :=
    shrinks_skipDigits.bind fun _ => .ite (.stopAtNext _) (.pure ())
  refine shrinks_advance.bind fun _ => shrinks_peek.bind fun _ => ?_
  exact .ite (shrinks_advance.bind fun _ => hdigits) hdigits

theorem shrinks_skipFraction : Shrinks skipFraction := by
  refine shrinks_advance.bind fun _ => shrinks_skipDigits.bind fun _ => .ite (.stopAtNext _) ?_
  exact shrinks_peek.bind fun _ => .ite shrinks_skipExponent (.pure ())

/-- A number takes all digits that it starts with. -/
theorem length_skipNumber {bs rest : Bytes} (h : skipNumber bs = .ok ((), rest)) :
    rest.length ≤ (bs.dropWhile isDigit).length := by
  obtain ⟨first, _, ⟨⟩, h⟩ := bind_eq_ok_iff.mp h
  obtain ⟨digits, _, ⟨⟩, h⟩ := bind_eq_ok_iff.mp h
  refine Shrinks.ite (.stopAtNext _) (.ite nofun (shrinks_peek.bind fun _ => ?_)) _ () rest h
  exact .ite shrinks_skipFraction (.ite shrinks_skipExponent (.pure ()))

theorem shrinks_skipKey : Shrinks skipKey := by
  refine shrinks_peekSolid.bind fun b? => ?_
  cases b? with
  | none => exact .stopAtNext _
  | some b =>
    refine .ite (shrinks_advance.bind fun _ => shrinks_skipString.bind fun _ =>
      shrinks_peekSolid.bind fun c? => ?_) (.stopAtNext _)
    cases c? with
    | none => exact .stopAtNext _
    | some c => exact .ite shrinks_advance (.stopAtNext _)

theorem shrinks_lead (frame : Frame) : Shrinks frame.lead := by
  cases frame with
  | list => exact .pure ()
  | object => exact shrinks_skipKey

/-- A scalar takes its first byte at least. -/
theorem length_skipScalar {b : UInt8} {cs rest : Bytes}
    (h : skipScalar b (b :: cs) = .ok ((), rest)) : rest.length ≤ cs.length := by
  rw [skipScalar] at h
  split_ifs at h with hnull htrue hfalse hquote hminus hdigit
  · exact shrinks_word restOfNull cs () rest h
  · exact shrinks_word restOfTrue cs () rest h
  · exact shrinks_word restOfFalse cs () rest h
  · exact shrinks_skipString cs () rest h
  · have hskip : skipNumber cs = .ok ((), rest) := h
    exact Nat.le_trans (length_skipNumber hskip) (List.dropWhile_sublist _).length_le
  · have hlength := length_skipNumber h
    rw [List.dropWhile_cons, if_pos hdigit] at hlength
    exact Nat.le_trans hlength (List.dropWhile_sublist _).length_le
  · cases h

/-! ### Moves -/

/-- The byte that opens a list or an object. -/
def Frame.opening : Frame → UInt8
  | .list => 0x5B
  | .object => 0x7B

theorem frame_opening (frame : Frame) :
    (if frame.opening = 0x5B then some Frame.list
      else if frame.opening = 0x7B then some Frame.object else none) = some frame := by
  cases frame <;> rfl

theorem closing_ne_comma (frame : Frame) : frame.closing ≠ 0x2C := by
  cases frame <;> decide

theorem peekSolid_eq {b : UInt8} {bs cs : Bytes} (h : bs.dropWhile isBlank = b :: cs) :
    peekSolid bs = .ok (some b, b :: cs) := by
  rw [peekSolid, h]
  rfl

/-- The first byte behind blanks is one of those that are there. -/
theorem length_dropWhile_lt {b : UInt8} {bs cs : Bytes} (h : bs.dropWhile isBlank = b :: cs) :
    cs.length < bs.length := by
  have hlength := (List.dropWhile_sublist isBlank (l := bs)).length_le
  rw [h] at hlength
  exact hlength

/-- The machine gets from one state to another, with no more moves than bytes passed. -/
def Moves (phase : Phase) (stack : List Frame) (bs : Bytes) (phase' : Phase)
    (stack' : List Frame) (rest : Bytes) : Prop :=
  ∃ k, k + rest.length ≤ bs.length ∧
    ∀ turns, skipMoves (turns + k) phase stack bs = skipMoves turns phase' stack' rest

namespace Moves

variable {phase phase' phase'' : Phase} {stack stack' stack'' : List Frame} {bs mid rest : Bytes}

theorem step (h : skipMove phase stack bs = .ok (some (phase', stack'), rest))
    (hlength : rest.length < bs.length) : Moves phase stack bs phase' stack' rest := by
  refine ⟨1, by omega, ?_⟩
  intro turns
  rw [skipMoves, h]

theorem trans (h : Moves phase stack bs phase' stack' mid)
    (h' : Moves phase' stack' mid phase'' stack'' rest) :
    Moves phase stack bs phase'' stack'' rest := by
  obtain ⟨k, hk, hmoves⟩ := h
  obtain ⟨k', hk', hmoves'⟩ := h'
  refine ⟨k' + k, by omega, ?_⟩
  intro turns
  rw [← Nat.add_assoc, hmoves, hmoves']

theorem scalar {b : UInt8} {cs : Bytes} (h : bs.dropWhile isBlank = b :: cs)
    (hlist : b ≠ 0x5B) (hobject : b ≠ 0x7B) (hscalar : skipScalar b (b :: cs) = .ok ((), rest)) :
    Moves .value stack bs .after stack rest := by
  refine step ?_ (Nat.lt_of_le_of_lt (length_skipScalar hscalar) (length_dropWhile_lt h))
  rw [skipMove, bind_eq (peekSolid_eq h)]
  dsimp only
  rw [if_neg hlist, if_neg hobject]
  exact bind_eq hscalar

theorem openEmpty (frame : Frame) {cs : Bytes} (h : bs.dropWhile isBlank = frame.opening :: cs)
    (hclose : cs.dropWhile isBlank = frame.closing :: rest) :
    Moves .value stack bs .after stack rest := by
  refine step ?_ (Nat.lt_trans (length_dropWhile_lt hclose) (length_dropWhile_lt h))
  rw [skipMove, bind_eq (peekSolid_eq h)]
  dsimp only
  rw [frame_opening]
  dsimp only
  rw [advance_bind, bind_eq (peekSolid_eq hclose)]
  dsimp only
  rw [if_pos rfl, advance_bind]
  rfl

theorem enter (frame : Frame) {c : UInt8} {cs ds : Bytes}
    (h : bs.dropWhile isBlank = frame.opening :: cs) (hitem : cs.dropWhile isBlank = c :: ds)
    (hopen : c ≠ frame.closing) (hlead : frame.lead (c :: ds) = .ok ((), rest)) :
    Moves .value stack bs .value (frame :: stack) rest := by
  have hshort := shrinks_lead frame _ _ _ hlead
  have hinner := length_dropWhile_lt hitem
  refine step ?_ (Nat.lt_of_le_of_lt (Nat.le_trans hshort hinner) (length_dropWhile_lt h))
  rw [skipMove, bind_eq (peekSolid_eq h)]
  dsimp only
  rw [frame_opening]
  dsimp only
  rw [advance_bind, bind_eq (peekSolid_eq hitem)]
  dsimp only
  rw [if_neg hopen]
  exact bind_eq hlead

theorem comma (frame : Frame) {cs : Bytes} (h : bs.dropWhile isBlank = 0x2C :: cs)
    (hlead : frame.lead cs = .ok ((), rest)) :
    Moves .after (frame :: stack) bs .value (frame :: stack) rest := by
  refine step ?_ (Nat.lt_of_le_of_lt (shrinks_lead frame _ _ _ hlead) (length_dropWhile_lt h))
  rw [skipMove, bind_eq (peekSolid_eq h)]
  dsimp only
  rw [if_pos rfl, advance_bind]
  exact bind_eq hlead

theorem close (frame : Frame) (h : bs.dropWhile isBlank = frame.closing :: rest) :
    Moves .after (frame :: stack) bs .after stack rest := by
  refine step ?_ (length_dropWhile_lt h)
  rw [skipMove, bind_eq (peekSolid_eq h)]
  dsimp only
  rw [if_neg (closing_ne_comma frame), if_pos rfl, advance_bind]
  rfl

end Moves

/-! ### Strings -/

theorem skipEscape_unicode {bs rest : Bytes} {n : Nat} (h : hexFour bs = .ok (n, rest)) :
    skipEscape (0x75 :: bs) = .ok ((), rest) := by
  change (hexFour bs >>= fun p => Except.ok ((), p.2)) = _
  rw [h]
  rfl

theorem pairByte_eq_ok {b : UInt8} {bs rest : Bytes} (h : pairByte b bs = .ok ((), rest)) :
    bs = b :: rest := by
  cases bs with
  | nil => cases h
  | cons c cs =>
    change (if c = b then advance else stopAtNext .halfSurrogate : Reader Unit) (c :: cs) = _ at h
    split_ifs at h with hc
    · cases h
      rw [hc]
      rfl
    · cases h

/-- An escape that is read can be passed over; a pair of them takes two steps. -/
theorem skipEscape_of_escape {bs head rest : Bytes} (h : escape bs = .ok (head, rest)) :
    skipEscape bs = .ok ((), rest) ∨ ∃ mid, skipEscape bs = .ok ((), 0x5C :: mid) ∧
      skipEscape mid = .ok ((), rest) := by
  cases bs with
  | nil => cases h
  | cons b bs =>
    by_cases hb : b = 0x75
    · subst hb
      change (unicodeEscape >>= fun c => pure (String.utf8EncodeChar c) : Reader Bytes) bs = _ at h
      obtain ⟨c, mid, hunicode, ⟨⟩⟩ := bind_eq_ok_iff.mp h
      obtain ⟨n, behind, hfour, hunicode⟩ := bind_eq_ok_iff.mp hunicode
      split_ifs at hunicode with hlow hplain
      · cases hunicode
      · cases hunicode
        exact .inl (skipEscape_unicode hfour)
      · obtain ⟨⟨⟩, next, hslash, hunicode⟩ := bind_eq_ok_iff.mp hunicode
        obtain ⟨⟨⟩, digits, hletter, hunicode⟩ := bind_eq_ok_iff.mp hunicode
        obtain ⟨m, last, hsecond, hunicode⟩ := bind_eq_ok_iff.mp hunicode
        split_ifs at hunicode with hrange
        · cases hunicode
        · obtain ⟨-, rfl⟩ := pure_eq_ok_iff.mp hunicode
          have hfirst := skipEscape_unicode hfour
          rw [pairByte_eq_ok hslash, pairByte_eq_ok hletter] at hfirst
          exact .inr ⟨0x75 :: digits, hfirst, skipEscape_unicode hsecond⟩
    · rw [escape, peek_bind] at h
      dsimp only at h
      rw [if_neg hb] at h
      cases hshort : shortEscape? b with
      | none =>
        rw [hshort] at h
        cases h
      | some v =>
        rw [hshort] at h
        cases h
        left
        rw [skipEscape, peek_bind]
        dsimp only
        rw [if_neg hb, hshort]
        rfl

theorem skipStringFrom_escape {turns : Nat} {bs mid : Bytes}
    (h : skipEscape bs = .ok ((), mid)) :
    skipStringFrom (turns + 1) (0x5C :: bs) = skipStringFrom turns mid := by
  change (skipEscape >>= fun _ => skipStringFrom turns : Reader Unit) bs = _
  exact bind_eq h

/-- Each turn takes a byte at least, so any number of turns above that of the bytes does. -/
theorem skipStringFrom_of_stringBytes {turns turns' : Nat} {bs content rest : Bytes}
    (h : stringBytes turns bs = .ok (content, rest)) (hturns : bs.length < turns') :
    skipStringFrom turns' bs = .ok ((), rest) := by
  induction turns generalizing turns' bs content with
  | zero => cases h
  | succ turns ih =>
    obtain ⟨left, rfl⟩ : ∃ left, turns' = left + 1 := ⟨turns' - 1, by omega⟩
    cases bs with
    | nil => cases h
    | cons b bs =>
      rw [List.length_cons] at hturns
      change (if b = 0x22 then pure [] else if b = 0x5C then _
        else if b < 0x20 then stop .controlCharacter else _ : Reader Bytes) bs = _ at h
      split_ifs at h with hquote hslash hcontrol
      · cases h
        subst hquote
        rfl
      · subst hslash
        obtain ⟨head, mid, hescape, htail⟩ := bind_eq_ok_iff.mp h
        obtain ⟨tail, last, htail, ⟨⟩⟩ := bind_eq_ok_iff.mp htail
        rcases skipEscape_of_escape hescape with hskip | ⟨next, hskip, hsecond⟩
        · have hlength := shrinks_skipEscape _ _ _ hskip
          rw [skipStringFrom_escape hskip]
          exact ih htail (by omega)
        · have hlength := shrinks_skipEscape _ _ _ hskip
          have hlength' := shrinks_skipEscape _ _ _ hsecond
          rw [List.length_cons] at hlength
          obtain ⟨left', rfl⟩ : ∃ left', left = left' + 1 := ⟨left - 1, by omega⟩
          rw [skipStringFrom_escape hskip, skipStringFrom_escape hsecond]
          exact ih htail (by omega)
      · cases h
      · obtain ⟨tail, last, htail, ⟨⟩⟩ := bind_eq_ok_iff.mp h
        change (if b < 0x20 then stop .controlCharacter else _ : Reader Unit) (b :: bs) = _
        rw [if_neg hcontrol, advance_bind, if_neg hquote, if_neg hslash]
        exact ih htail (by omega)

theorem skipString_of_stringRest {bs rest : Bytes} {s : String}
    (h : stringRest bs = .ok (s, rest)) : skipString bs = .ok ((), rest) := by
  rw [stringRest] at h
  cases hbytes : stringBytes (bs.length + 1) bs with
  | error e =>
    rw [hbytes] at h
    cases h
  | ok p =>
    obtain ⟨content, mid⟩ := p
    rw [hbytes] at h
    dsimp only at h
    cases htext : Text.text? content with
    | error f =>
      rw [htext] at h
      cases h
    | ok s' =>
      rw [htext] at h
      cases h
      exact skipStringFrom_of_stringBytes hbytes (Nat.lt_succ_self _)

theorem colon_eq_ok {bs rest : Bytes} (h : colon bs = .ok ((), rest)) :
    bs.dropWhile isBlank = 0x3A :: rest := by
  obtain ⟨b, cs, hdrop, -, h⟩ := exists_of_peekSolid nofun h
  dsimp only at h
  split_ifs at h with hcolon
  · cases h
    rw [hdrop, hcolon]
    rfl
  · cases h

/-- Blanks before the key are passed over as well. -/
theorem skipKey_of_readKey {bs mid behind rest : Bytes} {key : String}
    (hquote : bs.dropWhile isBlank = 0x22 :: mid)
    (hkey : readKey (0x22 :: mid) = .ok (key, behind)) (hcolon : colon behind = .ok ((), rest)) :
    skipKey bs = .ok ((), rest) := by
  have hstring : skipString mid = .ok ((), behind) := skipString_of_stringRest hkey
  rw [skipKey, bind_eq (peekSolid_eq hquote)]
  dsimp only
  rw [if_pos rfl, advance_bind]
  change (skipString >>= fun _ => _ : Reader Unit) mid = _
  rw [bind_eq hstring, bind_eq (peekSolid_eq (colon_eq_ok hcolon))]
  rfl

/-! ### Values -/

/-- The machine passes over what the reader takes, blanks before it included. -/
structure Passes (item : Reader α) : Prop where
  blanks : ∀ bs, item (bs.dropWhile isBlank) = item bs
  moves : ∀ {bs rest : Bytes} {a : α}, item bs = .ok (a, rest) → ∀ stack,
    Moves .value stack bs .after stack rest

variable {item : Reader α}

theorem Passes.moves_elements (h : Passes item) {turns : Nat} {bs rest : Bytes} {as : List α}
    (hread : elements item turns false bs = .ok (as, rest)) (stack : List Frame) :
    ∃ cs, rest = 0x5D :: cs ∧ Moves .after (.list :: stack) bs .after stack cs := by
  induction turns generalizing bs as with
  | zero => cases hread
  | succ turns ih =>
    obtain ⟨more, mid, hmore, hread⟩ := bind_eq_ok_iff.mp hread
    cases goesOn_of_moreElements hmore with
    | last hclose =>
      cases hread
      exact ⟨_, rfl, .close .list hclose⟩
    | next hcomma hitem hopen =>
      obtain ⟨a, behind, hfirst, hread⟩ := bind_eq_ok_iff.mp hread
      obtain ⟨as, last, hread, ⟨⟩⟩ := bind_eq_ok_iff.mp hread
      rw [← hitem, h.blanks] at hfirst
      obtain ⟨cs, hcs, hmoves⟩ := ih hread
      exact ⟨cs, hcs, (Moves.comma .list hcomma rfl).trans ((h.moves hfirst _).trans hmoves)⟩

theorem Passes.moves_listRest (h : Passes item) {bs cs rest : Bytes} {as : List α}
    (hbs : bs.dropWhile isBlank = 0x5B :: cs) (hread : listRest item cs = .ok (as, rest))
    (stack : List Frame) : Moves .value stack bs .after stack rest := by
  obtain ⟨as, last, helements, hend⟩ := bind_eq_ok_iff.mp hread
  obtain ⟨⟨⟩, behind, hend, hpure⟩ := bind_eq_ok_iff.mp hend
  obtain ⟨rfl, rfl⟩ := pure_eq_ok_iff.mp hpure
  have hclosed {ds : Bytes} (hlast : last = 0x5D :: ds) : behind = ds := by
    subst hlast
    cases hend
    rfl
  obtain ⟨more, mid, hmore, helements⟩ := bind_eq_ok_iff.mp helements
  cases goesOn_of_moreElements hmore with
  | last hclose =>
    cases helements
    rw [hclosed rfl]
    exact .openEmpty .list hbs hclose
  | first hitem hopen =>
    obtain ⟨a, next, hfirst, helements⟩ := bind_eq_ok_iff.mp helements
    obtain ⟨as, last, helements, ⟨⟩⟩ := bind_eq_ok_iff.mp helements
    obtain ⟨ds, hds, hmoves⟩ := h.moves_elements helements stack
    rw [hclosed hds]
    exact (Moves.enter .list hbs hitem hopen rfl).trans ((h.moves hfirst _).trans hmoves)

theorem Passes.moves_memberList (h : Passes item) {turns : Nat} {bs rest : Bytes}
    {ms : List (String × α)} (hread : memberList item turns false bs = .ok (ms, rest))
    (stack : List Frame) : Moves .after (.object :: stack) bs .after stack rest := by
  induction turns generalizing bs ms with
  | zero => cases hread
  | succ turns ih =>
    obtain ⟨more, mid, hmore, hread⟩ := bind_eq_ok_iff.mp hread
    obtain ⟨hgoes, hhead⟩ := goesOn_of_moreMembers hmore
    cases hgoes with
    | last hclose =>
      cases hread
      exact .close .object hclose
    | next hcomma hitem hopen =>
      cases hhead
      obtain ⟨key, behind, hkey, hread⟩ := bind_eq_ok_iff.mp hread
      obtain ⟨⟨⟩, value, hcolon, hread⟩ := bind_eq_ok_iff.mp hread
      obtain ⟨a, next, hfirst, hread⟩ := bind_eq_ok_iff.mp hread
      obtain ⟨ms, last, hread, ⟨⟩⟩ := bind_eq_ok_iff.mp hread
      have hlead := skipKey_of_readKey hitem hkey hcolon
      exact (Moves.comma .object hcomma hlead).trans ((h.moves hfirst _).trans (ih hread))

theorem Passes.moves_memberRest (h : Passes item) {bs cs rest : Bytes}
    {ms : List (String × α)} (hbs : bs.dropWhile isBlank = 0x7B :: cs)
    (hread : memberRest item cs = .ok (ms, rest)) (stack : List Frame) :
    Moves .value stack bs .after stack rest := by
  obtain ⟨more, mid, hmore, hread⟩ := bind_eq_ok_iff.mp hread
  obtain ⟨hgoes, hhead⟩ := goesOn_of_moreMembers hmore
  cases hgoes with
  | last hclose =>
    cases hread
    exact .openEmpty .object hbs hclose
  | first hitem hopen =>
    cases hhead
    obtain ⟨key, behind, hkey, hread⟩ := bind_eq_ok_iff.mp hread
    obtain ⟨⟨⟩, value, hcolon, hread⟩ := bind_eq_ok_iff.mp hread
    obtain ⟨a, next, hfirst, hread⟩ := bind_eq_ok_iff.mp hread
    obtain ⟨ms, last, hread, ⟨⟩⟩ := bind_eq_ok_iff.mp hread
    have hquote (cs : Bytes) : (0x22 :: cs).dropWhile isBlank = 0x22 :: cs := rfl
    have hlead := skipKey_of_readKey (hquote _) hkey hcolon
    exact (Moves.enter .object hbs hitem hopen hlead).trans
      ((h.moves hfirst _).trans (h.moves_memberList hread stack))

/-- A tree is passed over if the trees inside it are. -/
theorem moves_of_begins {depth : Nat} (h : ∀ below, depth = below + 1 → Passes (readTree below))
    {b : UInt8} {bs cs rest : Bytes} {t : Tree} (hbs : bs.dropWhile isBlank = b :: cs)
    (hbegins : Begins depth b cs t rest) (stack : List Frame) :
    Moves .value stack bs .after stack rest := by
  cases hbegins with
  | null hword => exact .scalar hbs (by decide) (by decide) hword
  | true hword => exact .scalar hbs (by decide) (by decide) hword
  | false hword => exact .scalar hbs (by decide) (by decide) hword
  | string hstring =>
    exact .scalar hbs (by decide) (by decide) (skipString_of_stringRest hstring)
  | negative hskip => exact .scalar hbs (by decide) (by decide) hskip
  | digit hdigit hskip =>
    refine .scalar hbs (ne_of_isDigit hdigit rfl) (ne_of_isDigit hdigit rfl) ?_
    rw [skipScalar, if_neg (ne_of_isDigit hdigit rfl), if_neg (ne_of_isDigit hdigit rfl),
      if_neg (ne_of_isDigit hdigit rfl), if_neg (ne_of_isDigit hdigit rfl),
      if_neg (ne_of_isDigit hdigit rfl), if_pos hdigit]
    exact hskip
  | list hlist => exact (h _ rfl).moves_listRest hbs hlist stack
  | object hobject => exact (h _ rfl).moves_memberRest hbs hobject stack

theorem passes_readTree (depth : Nat) : Passes (readTree depth) := by
  have hlevel {depth : Nat} (h : ∀ below, depth = below + 1 → Passes (readTree below)) :
      Passes (readTree depth) := by
    refine ⟨readTree_dropWhile depth, fun hread stack => ?_⟩
    obtain ⟨b, cs, hbs, hbegins⟩ := exists_begins hread
    exact moves_of_begins h hbs hbegins stack
  induction depth with
  | zero => exact hlevel nofun
  | succ depth ih =>
    refine hlevel ?_
    rintro _ ⟨⟩
    exact ih

/-- **A tree passed over**: whoever passes over a value goes as far as whoever reads its
    tree, at whatever depth. -/
theorem skipValue_of_readTree {depth : Nat} {bs rest : Bytes} {t : Tree}
    (h : readTree depth bs = .ok (t, rest)) : skipValue bs = .ok ((), rest) := by
  obtain ⟨k, hk, hmoves⟩ := (passes_readTree depth).moves h []
  have hturns : bs.length + 2 = (bs.length - k + 1) + 1 + k := by omega
  rw [skipValue, hturns, hmoves]
  rfl

end QueryClient.Json
