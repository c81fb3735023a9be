/-
  QueryClient/Proofs/CommandLine/Run.lean
  =======================================
  **A run delivers to one place, or does nothing.** A run goes through reading, decoding
  and generating before it touches anything, and there is only one write, at the end. So
  there are two kinds of outcome (`Options.fails_or_delivers`): a fault in one of the
  steps, with nothing printed and the directory as it was, or a response that is delivered
  to standard output or to a file. The request has been read by then, which is why the
  file may be the one that it was read from.

  What a run is to do follows from what its arguments ask for, and from where its paths lead.
  Neither is said in terms of how a run finds out: the first is `Options.AskedBy` and
  `Stop.AskedBy`, the second `Options.Reads` and `Directory.Wrote`.
-/
import QueryClient.Proofs.CommandLine.Arguments
import QueryClient.Proofs.Directory
import QueryClient.Proofs.Text.Utf8

namespace QueryClient.CommandLine

variable {o : Options} {stdin : Bytes} {d : Directory} {working : Location}

/-! ### What a run is to do -/

/-- A preview as a text: each file under its name, and how many there are. -/
def previewText (response : Response) : String :=
  String.join (response.files.map fun f => "── " ++ f.name ++ " ──\n" ++ f.text ++ "\n") ++
    ("── Summary ──\n" ++ response.countLine ++ "\n")

namespace Options

/-- The bytes of the request: standard input, or the file that the input leads to. -/
inductive Reads (o : Options) (stdin : Bytes) (d : Directory) (working : Location) :
    Bytes → Prop where
  | stdin (input : o.input? = .none) : Reads o stdin d working stdin
  | file {path : String} {l : Location} {bytes : Bytes} (input : o.input? = some path)
      (leads : d.locate? path working = some l) (holds : d.contents? l = some bytes) :
      Reads o stdin d working bytes

/-- The response that the request of a run comes to. -/
def Answers (o : Options) (stdin : Bytes) (d : Directory) (working : Location)
    (response : Response) : Prop :=
  ∃ bytes r, o.Reads stdin d working bytes ∧
    (if o.json then RequestFormat.json else .message).decode bytes = .ok r ∧
    r.generate = .ok response

/-- The steps at which a run may fail. -/
inductive Fails (o : Options) (stdin : Bytes) (d : Directory) (working : Location) : Prop where
  | unreadable (nothing : ∀ bytes, ¬o.Reads stdin d working bytes)
  | undecodable {bytes : Bytes} {f : RunFault} (reads : o.Reads stdin d working bytes)
      (decode : (if o.json then RequestFormat.json else .message).decode bytes = .error f)
  | refused {bytes : Bytes} {r : Request} {f : Fault} (reads : o.Reads stdin d working bytes)
      (decode : (if o.json then RequestFormat.json else .message).decode bytes = .ok r)
      (generate : r.generate = .error f)
  | unwritable {response : Response} {path : String}
      (answers : o.Answers stdin d working response) (real : o.dryRun = false)
      (output : o.output? = some path)
      (nowhere : ∀ l, d.locate? path working = some l → d.isFolder l = true)

/-- The outcomes in which a response has been delivered. -/
inductive Delivers (o : Options) (response : Response) (d : Directory) (working : Location) :
    Outcome → Prop where
  | preview {stdout : Bytes} (dry : o.dryRun = true)
      (items : stdout = response.preview.flatMap fun item => Text.utf8 item.text)
      (text : stdout = Text.utf8 (previewText response)) :
      Delivers o response d working ⟨0, stdout, d⟩
  | print (real : o.dryRun = false) (output : o.output? = .none) :
      Delivers o response d working ⟨0, Wire.encodeResponse response, d⟩
  | save {path : String} {d' : Directory} (real : o.dryRun = false)
      (output : o.output? = some path)
      (wrote : d.Wrote working path (Wire.encodeResponse response) d') :
      Delivers o response d working ⟨0, [], d'⟩

end Options

/-- Does a run on the arguments fail: by the arguments, or by one of the steps after them? -/
inductive Fails (arguments : List String) (stdin : Bytes) (d : Directory) (working : Location) :
    Prop where
  | usage (noText : ∀ stop : Stop, ¬stop.AskedBy arguments)
      (noOptions : ∀ o : Options, ¬o.AskedBy arguments)
  | step {o : Options} (asked : o.AskedBy arguments) (fails : o.Fails stdin d working)

/-! ### Steps of a run -/

theorem previewBytes_eq (response : Response) :
    previewBytes response = Text.utf8 (previewText response) := by
  have hfiles (files : List OutputFile) :
      (files.flatMap fun f => [PreviewItem.divider f.name, .preformatted f.text]).flatMap
          (fun item => Text.utf8 item.text) =
        Text.utf8 (String.join
          (files.map fun f => "── " ++ f.name ++ " ──\n" ++ f.text ++ "\n")) := by
    induction files with
    | nil => rfl
    | cons f files ih =>
      rw [List.flatMap_cons, List.flatMap_append, ih, List.map_cons, String.join_cons,
        Text.utf8_append]
      simp [PreviewItem.text, Text.utf8_append]
  rw [previewBytes, Response.preview, List.flatMap_append, hfiles, previewText, Text.utf8_append]
  simp [PreviewItem.text, Text.utf8_append]

namespace Options

theorem request_eq_ok_iff {bytes : Bytes} :
    o.request stdin d working = .ok bytes ↔ o.Reads stdin d working bytes := by
  unfold request
  cases hinput : o.input? with
  | none =>
    constructor
    · intro h
      cases h
      exact .stdin hinput
    · intro h
      cases h with
      | stdin input => rfl
      | file input leads holds => simp [hinput] at input
  | some path =>
    dsimp only
    rw [Directory.read_eq_ok_iff]
    constructor
    · rintro ⟨l, hl, hholds⟩
      exact .file hinput hl hholds
    · intro h
      cases h with
      | stdin input => simp [hinput] at input
      | @file path' l bytes input leads holds =>
        obtain rfl : path = path' := by simpa [hinput] using input
        exact ⟨l, leads, holds⟩

theorem outcome_of_answers {response : Response} (h : o.Answers stdin d working response) :
    o.outcome stdin d working = (o.delivery response).outcome d working := by
  obtain ⟨bytes, r, hreads, hdecode, hgenerate⟩ := h
  simp [outcome, request_eq_ok_iff.mpr hreads, deliver, format, RequestFormat.respond, hdecode,
    hgenerate, Except.mapError, Except.map]

theorem outcome_of_fails (h : o.Fails stdin d working) :
    o.outcome stdin d working = ⟨faultCode, [], d⟩ := by
  cases h with
  | unreadable nothing =>
    cases hrequest : o.request stdin d working with
    | error f => simp [outcome, hrequest]
    | ok bytes => exact absurd (request_eq_ok_iff.mp hrequest) (nothing bytes)
  | undecodable reads decode =>
    simp [outcome, request_eq_ok_iff.mpr reads, deliver, format, RequestFormat.respond, decode,
      Except.map]
  | refused reads decode generate =>
    simp [outcome, request_eq_ok_iff.mpr reads, deliver, format, RequestFormat.respond, decode,
      generate, Except.map, Except.mapError]
  | @unwritable response path answers real output nowhere =>
    cases hwrite : d.write path (Wire.encodeResponse response) working with
    | error f =>
      simp [outcome_of_answers answers, delivery, real, output, Delivery.outcome, hwrite]
    | ok d' =>
      obtain ⟨l, hl, hfolder⟩ := Directory.exists_write_iff.mp ⟨d', hwrite⟩
      rw [nowhere l hl] at hfolder
      cases hfolder

theorem Delivers.exitCode {response : Response} {out : Outcome}
    (h : o.Delivers response d working out) : out.exitCode = 0 := by
  cases h <;> rfl

/-- **The last step.** A response is delivered, but for an output that cannot be written. -/
theorem fails_or_delivers_of_answers {response : Response}
    (h : o.Answers stdin d working response) :
    o.Fails stdin d working ∨ o.Delivers response d working (o.outcome stdin d working) := by
  rw [outcome_of_answers h, delivery]
  cases hdry : o.dryRun with
  | true => exact .inr (.preview hdry rfl (previewBytes_eq response))
  | false =>
    cases houtput : o.output? with
    | none => exact .inr (.print hdry houtput)
    | some path =>
      cases hwrite : d.write path (Wire.encodeResponse response) working with
      | error f =>
        refine .inl (.unwritable h hdry houtput ?_)
        intro l hl
        by_contra hfile
        obtain ⟨d', hd'⟩ := Directory.exists_write_iff.mpr ⟨l, hl, by simpa using hfile⟩
        rw [hwrite] at hd'
        cases hd'
      | ok d' =>
        right
        simp only [Bool.false_eq_true, if_false, Delivery.outcome, hwrite]
        exact .save hdry houtput (Directory.wrote_of_write hwrite)

/-- A run with options fails, or it delivers. -/
theorem fails_or_delivers (o : Options) (stdin : Bytes) (d : Directory) (working : Location) :
    o.Fails stdin d working ∨ ∃ response, o.Answers stdin d working response ∧
      o.Delivers response d working (o.outcome stdin d working) := by
  cases hrequest : o.request stdin d working with
  | error f =>
    refine .inl (.unreadable fun bytes hreads => ?_)
    rw [request_eq_ok_iff.mpr hreads] at hrequest
    cases hrequest
  | ok bytes =>
    have hreads := request_eq_ok_iff.mp hrequest
    cases hdecode : (if o.json then RequestFormat.json else .message).decode bytes with
    | error f => exact .inl (.undecodable hreads hdecode)
    | ok r =>
      cases hgenerate : r.generate with
      | error f => exact .inl (.refused hreads hdecode hgenerate)
      | ok response =>
        have hanswers : o.Answers stdin d working response :=
          ⟨bytes, r, hreads, hdecode, hgenerate⟩
        exact (fails_or_delivers_of_answers hanswers).imp_right fun h => ⟨response, hanswers, h⟩

end Options

/-! ### Runs -/

variable {arguments : List String}

theorem run_of_askedBy (h : o.AskedBy arguments) :
    run arguments stdin d working = o.outcome stdin d working := by
  rw [run, parse_eq_ok_iff.mpr h]

theorem run_of_stop {stop : Stop} (h : stop.AskedBy arguments) :
    run arguments stdin d working = stop.outcome d := by
  rw [run, (parse_eq_error_iff h.ne_usage).mpr h]

/-- **A run that fails does nothing.** -/
theorem exists_code_of_fails (h : Fails arguments stdin d working) :
    ∃ code, code ≠ 0 ∧ run arguments stdin d working = ⟨code, [], d⟩ := by
  cases h with
  | usage noText noOptions =>
    cases hparse : parse arguments with
    | ok o => exact absurd (parse_eq_ok_iff.mp hparse) (noOptions o)
    | error stop =>
      by_cases hstop : stop = .usage
      · subst hstop
        refine ⟨usageCode, by decide, ?_⟩
        rw [run, hparse]
        rfl
      · exact absurd ((parse_eq_error_iff hstop).mp hparse) (noText stop)
  | step asked fails =>
    refine ⟨faultCode, by decide, ?_⟩
    rw [run_of_askedBy asked, Options.outcome_of_fails fails]

theorem exitCode_of_not_fails (h : ¬Fails arguments stdin d working) :
    (run arguments stdin d working).exitCode = 0 := by
  cases hparse : parse arguments with
  | ok o =>
    have hasked := parse_eq_ok_iff.mp hparse
    rw [run_of_askedBy hasked]
    rcases o.fails_or_delivers stdin d working with hfails | ⟨response, -, hdelivers⟩
    · exact absurd (.step hasked hfails) h
    · exact hdelivers.exitCode
  | error stop =>
    by_cases hstop : stop = .usage
    · subst hstop
      refine absurd (.usage ?_ ?_) h
      · intro stop hasked
        have hother := (parse_eq_error_iff hasked.ne_usage).mpr hasked
        rw [hparse] at hother
        cases hother
        exact hasked.ne_usage rfl
      · intro o hasked
        have hother := parse_eq_ok_iff.mpr hasked
        rw [hparse] at hother
        cases hother
    · rw [run_of_stop ((parse_eq_error_iff hstop).mp hparse)]
      cases stop with
      | usage => exact absurd rfl hstop
      | help => rfl
      | version => rfl

/-- **One place, or none.** Whatever the arguments, the input, the directory and the folder of
    it to work in, a run with an exit code other than 0 has printed nothing and changed
    nothing, and that is what comes of wrong arguments and of a fault in any step. Where the
    arguments ask for a text about the program, it is printed and nothing changes. Any other
    run that ends with exit code 0 has read and decoded a request in the directory as it was,
    generated a response, and delivered it to one place. A dry run, which is what a run with
    the argument `--dry-run` is, prints the preview, item by item, and changes nothing,
    whether or not an output is named. Otherwise the encoded response is printed and nothing
    changes, or it is written to the output and nothing is printed, and nothing else in the
    directory changes. -/
theorem run_delivers_to_one_place (arguments : List String) (stdin : Bytes) (d : Directory)
    (working : Location) :
    let out := run arguments stdin d working
    (out.exitCode ≠ 0 → out.stdout = [] ∧ out.directory = d) ∧
    (out.exitCode ≠ 0 ↔ Fails arguments stdin d working) ∧
    (Stop.help.AskedBy arguments → out = ⟨0, Text.utf8 helpText, d⟩) ∧
    (Stop.version.AskedBy arguments → out = ⟨0, Text.utf8 versionText, d⟩) ∧
    ∀ o : Options, o.AskedBy arguments →
      (o.dryRun = true ↔ "--dry-run" ∈ arguments) ∧
      (out.exitCode = 0 → ∃ response, o.Answers stdin d working response ∧
        o.Delivers response d working out) := by
  intro out
  have hquiet (h : Fails arguments stdin d working) :
      out.exitCode ≠ 0 ∧ out.stdout = [] ∧ out.directory = d := by
    obtain ⟨code, hcode, hout⟩ := exists_code_of_fails h
    have hout : out = ⟨code, [], d⟩ := hout
    rw [hout]
    exact ⟨hcode, rfl, rfl⟩
  have hfails (h : out.exitCode ≠ 0) : Fails arguments stdin d working := by
    by_contra hfine
    exact h (exitCode_of_not_fails hfine)
  refine ⟨fun h => (hquiet (hfails h)).2, ⟨hfails, fun h => (hquiet h).1⟩, run_of_stop,
    run_of_stop, ?_⟩
  intro o hasked
  refine ⟨hasked.has_iff .dryRun, fun hcode => ?_⟩
  have hout : out = o.outcome stdin d working := run_of_askedBy hasked
  rw [hout]
  rcases o.fails_or_delivers stdin d working with hfault | hdelivers
  · exact absurd hcode (hquiet (.step hasked hfault)).1
  · exact hdelivers

/-- A request for one function. -/
def touchRequest : Bytes :=
  Text.utf8 ("\x7b\"pluginOptions\":\x7b\"driver\":\"turso\"\x7d,\"queries\":[\x7b" ++
    "\"name\":\"Touch\",\"cmd\":\":exec\",\"text\":\"\",\"filename\":\"q.sql\"\x7d]\x7d")

/-- A folder to work in, with a file, and the request outside of it. -/
def workplace : Directory := ⟨[(["home", "a"], [0x2A]), (["q"], touchRequest)]⟩

/-- The response takes the place of its request, which is outside the folder that the run
    works in. -/
theorem run_delivers_to_one_place_in_place :
    let arguments := ["--json", "-i", "/q", "--output=../q"]
    let o : Options := ⟨some "/q", some "../q", true, false⟩
    let out := run arguments [] workplace ["home"]
    o.AskedBy arguments ∧ out.exitCode = 0 ∧ out.stdout = [] ∧
      (∃ response, o.Answers [] workplace ["home"] response ∧
        out.directory.read "q" = .ok (Wire.encodeResponse response)) ∧
      out.directory.read "a" ["home"] = .ok [0x2A] := by
  intro arguments o out
  have hasked : o.AskedBy arguments := parse_eq_ok_iff.mp (by decide +kernel)
  have hcode : (run ["--json", "-i", "/q", "--output=../q"] [] workplace ["home"]).exitCode = 0 :=
    by decide +kernel
  have hsame : workplace.locate? "q" = workplace.locate? "../q" ["home"] := by decide +kernel
  have hother : workplace.locate? "a" ["home"] ≠ workplace.locate? "../q" ["home"] := by
    decide +kernel
  obtain ⟨-, -, -, -, hoptions⟩ := run_delivers_to_one_place arguments [] workplace ["home"]
  obtain ⟨response, hanswers, hdelivers⟩ := (hoptions o hasked).2 hcode
  generalize hout : run arguments [] workplace ["home"] = result at hdelivers
  cases hdelivers with
  | preview dry => cases dry
  | print real output => cases output
  | save real output wrote =>
    cases output
    dsimp only [out]
    rw [hout]
    refine ⟨hasked, rfl, rfl, ⟨response, hanswers, wrote.there "q" [] hsame⟩, ?_⟩
    rw [wrote.elsewhere "a" ["home"] hother]
    decide +kernel

end QueryClient.CommandLine
