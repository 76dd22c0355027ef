/-
**The answer to a specification: all or nothing, wherever the settings come from.**

The command resolves a specification once, into outputs that remember which override was set first,
and these are the outputs of the library with that addition.  So a refused specification is answered
by its error alone, in both formats, and otherwise every output is shown, in order; where documents
are asked for, no other outputs would look the same.  A specification, a format and a directory may
each be given as an argument or be settled by the environment; what is answered depends on which
they are and not on where they come from.

It also depends on how text is painted.  And what is on the two streams in the end is not only what
is printed: a logger has been handed records on the segments, and one on the error, and writes as it
is set to.  Checking an environment, painting and logging are arbitrary here, except that a checker
reads environments with nothing unexpected.

Main definitions:

* `Transcode.Program.Asks` — arguments and an environment ask for the outputs of a source;
* `Transcode.Outputs.Shows` — a text shows outputs of a source in a format.

Main results:

* `Transcode.Outputs.Shows.unique` — documents show no two lists of outputs;
* `Transcode.Outputs.respond_of_refuses`, `Transcode.Outputs.respond_of_yields` — what is printed,
  and what is handed to the log;
* `Transcode.Program.resolve_of_asks` — what is answered depends on what is asked for;
* `Transcode.Program.answers_all_or_nothing` — **the answer to a specification**;
* `Transcode.Program.answer_painted_and_logged` — more than what is asked for shows on the streams.
-/

import Mathlib.Data.List.Forall2
import Transcode.CommandLine.Resolve
import Transcode.Proofs.Json.Printed
import Transcode.Proofs.Output.Document
import Transcode.Proofs.Specification.Records

set_option relaxedAutoImplicit false
set_option autoImplicit false

namespace Transcode

/-! ### Planned outputs -/

/-- A planned output is the output that the settings describe. -/
theorem PlannedOutput.map_output_ofTokens (tokens : List Token) :
    (ofTokens tokens).map output = Output.resolve tokens := by
  unfold ofTokens
  cases Output.resolve tokens <;> rfl

/-! ### Responses -/

/-- A document shows an output of a source: its path, and its fields, the overrides in one of the
two orders. -/
def Output.IsShownAs (source : Text) (dir : Option Text) (o : Output) (document : Json) : Prop :=
  ∃ first, document = .ofFields (("path", .text (o.path source dir)) :: o.fields first)

/-- A document shows no two outputs. -/
theorem Output.leftUnique_isShownAs (source : Text) (dir : Option Text) :
    Relator.LeftUnique (IsShownAs source dir) := by
  rintro o o' document ⟨first, hfirst⟩ ⟨first', hfirst'⟩
  obtain ⟨_, hfields⟩ := List.cons.inj (Json.ofFields_injective (hfirst.symm.trans hfirst'))
  exact eq_of_fields_eq hfields

namespace Outputs

/-- A text shows outputs of a source: as a list of documents, one for each output in turn, or as a
title and two lines for each output in turn, with its number, its summary and its path.  That there
was no specification is mentioned before the title. -/
inductive Shows (paint : Painter) (source : Text) (spec dir : Option Text)
    (outputs : List Output) : Format → Text → Prop where
  | json {documents : List Json}
      (h : List.Forall₂ (Output.IsShownAs source dir) outputs documents) :
      Shows paint source spec dir outputs .json
        (Response.line ((Json.list documents).print .indented))
  | pretty :
      Shows paint source spec dir outputs .pretty
        ((if spec = none then
          Response.line (paint .blue "i".toList ++
            " No specification given, using the default output".toList)
        else []) ++
        Response.header paint ("Outputs for ".toList ++ source) ++
        outputs.zipIdx.flatMap fun o =>
          Response.line (paint .cyan ('#' :: Text.ofNat o.2) ++ ' ' :: o.1.summary) ++
          Response.line ("  ".toList ++ paint .gray "File:".toList ++
            ' ' :: o.1.path source dir))

variable {paint : Painter} {format : Format} {source : Text} {spec dir : Option Text}
  {fs : FileSystem}

theorem shows_json_iff {outputs : List Output} {stdout : Text} :
    Shows paint source spec dir outputs .json stdout ↔
      ∃ documents, List.Forall₂ (Output.IsShownAs source dir) outputs documents ∧
        stdout = Response.line ((Json.list documents).print .indented) := by
  constructor
  · rintro ⟨h⟩
    exact ⟨_, h, rfl⟩
  · rintro ⟨documents, h, rfl⟩
    exact .json h

/-- A list of documents shows no two lists of outputs. -/
theorem Shows.unique {outputs others : List Output} {stdout : Text}
    (h : Shows paint source spec dir outputs .json stdout)
    (h' : Shows paint source spec dir others .json stdout) : outputs = others := by
  obtain ⟨documents, hshown, rfl⟩ := shows_json_iff.1 h
  obtain ⟨documents', hshown', hline⟩ := shows_json_iff.1 h'
  have hprint := Json.print_injective .indented (List.append_cancel_right hline)
  rw [← Json.list.inj hprint] at hshown'
  exact (Output.leftUnique_isShownAs source dir).forall₂ hshown hshown'

variable (paint format dir)

/-- The documents of planned outputs show the outputs. -/
theorem isShownAs_documents (planned : List PlannedOutput) :
    List.Forall₂ (Output.IsShownAs source dir) (planned.map PlannedOutput.output)
      (planned.map (PlannedOutput.document source dir)) := by
  rw [List.forall₂_map_left_iff, List.forall₂_map_right_iff, List.forall₂_same]
  exact fun p _ => ⟨p.first, rfl⟩

/-- The listing of planned outputs shows the outputs. -/
theorem shows_listing (planned : List PlannedOutput) :
    Shows paint source spec dir (planned.map PlannedOutput.output) .pretty
      (listing paint source spec dir planned) := by
  have hshows : Shows paint source spec dir (planned.map PlannedOutput.output) .pretty _ :=
    .pretty
  rw [List.zipIdx_map, List.flatMap_map] at hshows
  exact hshows

/-- A refused specification is answered by its error alone, in both formats, and there is a record
on the error after those on the segments. -/
theorem respond_of_refuses {e : ParseError}
    (h : (Specification.resolveWith PlannedOutput.ofTokens PlannedOutput.output source
      spec).Refuses fs e) :
    (respond paint source spec format dir).Yields fs (Response.failure (refusal paint e)) ∧
      (respond paint source spec format dir).records fs =
        (Specification.resolveWith PlannedOutput.ofTokens PlannedOutput.output source
          spec).records fs ++ [refusedRecord source e] := by
  have htry := Specification.yields_tryResolveWith_error.2 h
  refine ⟨Attempt.yields_bind.2 ⟨_, htry, rfl⟩, ?_⟩
  rw [respond, Attempt.records_bind_of_yields htry, Specification.records_tryResolveWith]
  rfl

/-- A specification that is not refused is answered by all of its outputs, and there are no records
but those on the segments. -/
theorem respond_of_yields {planned : List PlannedOutput}
    (h : (Specification.resolveWith PlannedOutput.ofTokens PlannedOutput.output source
      spec).Yields fs planned) :
    (∃ stdout, (respond paint source spec format dir).Yields fs (Response.success stdout) ∧
        Shows paint source spec dir (planned.map PlannedOutput.output) format stdout) ∧
      (respond paint source spec format dir).records fs =
        (Specification.resolveWith PlannedOutput.ofTokens PlannedOutput.output source
          spec).records fs := by
  have htry := Specification.yields_tryResolveWith_ok.2 h
  constructor
  · cases format with
    | json =>
        exact ⟨_, Attempt.yields_bind.2 ⟨_, htry, rfl⟩, .json (isShownAs_documents dir planned)⟩
    | pretty =>
        exact ⟨_, Attempt.yields_bind.2 ⟨_, htry, rfl⟩, shows_listing paint dir planned⟩
  · rw [respond, Attempt.records_bind_of_yields htry, Specification.records_tryResolveWith]
    cases format <;> exact List.append_nil _

end Outputs

/-! ### What is asked for -/

namespace Program

/-- Arguments and an environment ask for the outputs of a source, with a specification, a format and
a directory.  What the arguments leave out is taken from the variables of the environment, with
nothing unexpected among them; an argument counts as given even if it is empty. -/
structure Asks (env : Environment) (args : ResolveArguments) (spec : Option Text)
    (format : Format) (dir : Option Text) : Prop where
  fits : env.Fits Settings.declaration
  spec_eq : args.formats.or (env Settings.formatsVariable) = spec
  json_iff : format = .json ↔
    args.json = some true ∨
      args.json = none ∧ env Settings.formatVariable = some Format.json.name
  dir_eq : args.outputDir.or (env Settings.outputDirVariable) = dir

variable {ε : Type} {check : Checker ε} {env env' : Environment} {args args' : ResolveArguments}
  {spec dir : Option Text} {format : Format}

/-- **What is answered depends on what is asked for**, and not on how it is asked. -/
theorem resolve_of_asks (hcheck : check.Reads) (h : Asks env args spec format dir)
    (paint : Painter) (source : Text) :
    resolve check paint env source args = .ok (Outputs.respond paint source spec format dir) := by
  obtain ⟨formats, json, outputDir⟩ := args
  obtain ⟨hfits, rfl, hjson, rfl⟩ := h
  have hsettled : (Settings.ofValues env).format = .json ↔
      env Settings.formatVariable = some Format.json.name := by
    simp [Settings.ofValues]
  have hformat : (if json.getD ((Settings.ofValues env).format == .json) then Format.json
      else .pretty) = format := by
    cases format with
    | json => rcases hjson.1 rfl with rfl | ⟨rfl, henv⟩ <;> simp [*]
    | pretty =>
        have hnot := mt hjson.2 (by decide)
        cases json with
        | none => simp_all
        | some flag => cases flag <;> simp_all
  rw [resolve, Settings.load_of_fits hcheck hfits]
  exact congrArg (fun f => Except.ok (Outputs.respond paint source _ f _)) hformat

theorem finish_of_yields (logger : Logger) {fs : FileSystem} {answer : Attempt Response}
    {r : Response} (h : answer.Yields fs r) :
    finish logger fs answer = .ok (.ok (r.withLog logger (answer.records fs))) := by
  rw [finish, h]
  rfl

/-- **The answer to a specification.**  Arguments in their environments that ask for the same get
the same answer.  Either the specification is refused, and what is printed is its code and message
on the error stream, nothing else, with exit code 1; or it yields outputs, and what is printed shows
these, nothing else, with exit code 0, and documents show no other outputs.  Both streams also have
what the logger writes, and it is handed a record on every segment up to a refused one, and one on
the error; for a specification without a segment, none. -/
theorem answers_all_or_nothing (hcheck : check.Reads) (h : Asks env args spec format dir)
    (h' : Asks env' args' spec format dir) (paint : Painter) (logger : Logger) (source : Text)
    (hasFile : Text → Bool) :
    let fs := FileSystem.ofFiles hasFile
    let segments := Specification.segments (spec.getD [])
    ∃ answer, resolve check paint env source args = .ok answer ∧
      resolve check paint env' source args' = .ok answer ∧
      ((∃ e before, (Specification.resolve source spec).Refuses fs e ∧
        Specification.RefusedAfter source fs e segments before ∧
        let records := Specification.resolvedRecords source 0 before ++
          [Specification.refusedRecord source before.length e, Outputs.refusedRecord source e]
        finish logger fs answer = .ok (.ok
          { exitCode := 1
            stdout := logger.stdout records []
            stderr := logger.stderr records (paint .red "✗".toList ++
              ' ' :: e.code ++ ": ".toList ++ e.message ++ ['\n']) })) ∨
      ∃ outputs stdout, (Specification.resolve source spec).Yields fs outputs ∧
        Outputs.Shows paint source spec dir outputs format stdout ∧
        (format = .json →
          ∀ others, Outputs.Shows paint source spec dir others format stdout → others = outputs) ∧
        let records := if segments = [] then [] else Specification.resolvedRecords source 0 outputs
        finish logger fs answer = .ok (.ok
          { exitCode := 0
            stdout := logger.stdout records stdout
            stderr := logger.stderr records [] })) := by
  intro fs segments
  refine ⟨_, resolve_of_asks hcheck h paint source, resolve_of_asks hcheck h' paint source, ?_⟩
  have hmake := PlannedOutput.map_output_ofTokens
  obtain ⟨e, hrefuses⟩ | ⟨planned, hyields⟩ :=
    (Specification.forwards_resolveWith source spec).refuses_or_yields hasFile
  · obtain ⟨before, hbefore, hrecords⟩ := Specification.exists_refusedAfter hmake hrefuses
    obtain ⟨hanswer, hlogged⟩ := Outputs.respond_of_refuses paint format dir hrefuses
    refine Or.inl ⟨e, before, Specification.refuses_resolve_of_make hmake hrefuses, hbefore, ?_⟩
    have hfinish := finish_of_yields logger hanswer
    rw [hlogged, hrecords, List.append_assoc] at hfinish
    exact hfinish
  · obtain ⟨⟨stdout, hanswer, hshows⟩, hlogged⟩ :=
      Outputs.respond_of_yields paint format dir hyields
    refine Or.inr ⟨_, stdout, Specification.yields_resolve_of_make hmake hyields, hshows, ?_, ?_⟩
    · rintro rfl others hothers
      exact hothers.unique hshows
    · have hfinish := finish_of_yields logger hanswer
      rw [hlogged, Specification.records_resolveWith_of_yields hyields] at hfinish
      exact hfinish

/-- Everything in the arguments, or all but the source in the environment: the answer is the same.
With the file of the track it shows both outputs, and without it none of them, though the first one
needs no file; then there are lines of the logger before the error. -/
theorem answers_all_or_nothing_moved :
    let spec := "enc=copy;q=20,at=ac3,ext=mp4".toList
    let env := fun name =>
      if name = Settings.formatsVariable then some spec
      else if name = Settings.formatVariable then some "json".toList
      else if name = Settings.outputDirVariable then some "out".toList
      else none
    let run := fun env args =>
      resolve Environment.check (Style.paint .plain) env "film.mkv".toList args
    let outputs := [Output.ofEncoder .copy,
      { Output.default with
        video := (Video.default .x264).withCrf 20
        container := .mp4
        audioTracks := [⟨.external "film.ac3".toList none, false, false⟩] }]
    let complaint := ["warn: Invalid output specification: ", "error: ",
      "✗ MISSING_TRACK_FILE: "].flatMap fun s =>
        Response.line (s.toList ++ "Track file not found for 'ac3': film.ac3".toList)
    let document := ["[",
      "  \x7b",
      "    \"path\": \"out/film.copy.mkv\",",
      "    \"video\": \x7b",
      "      \"encoder\": \"copy\"",
      "    \x7d,",
      "    \"outputExtension\": \"mkv\",",
      "    \"audio\": \x7b",
      "      \"encoder\": \"copy\",",
      "      \"kbpsPerChannel\": 80",
      "    \x7d,",
      "    \"audioNormalize\": false,",
      "    \"audioTracks\": [],",
      "    \"subtitleTracks\": []",
      "  \x7d,",
      "  \x7b",
      "    \"path\": \"out/film.x264-q20.mp4\",",
      "    \"video\": \x7b",
      "      \"encoder\": \"x264\",",
      "      \"crf\": 20,",
      "      \"profile\": \"film\",",
      "      \"compat\": false",
      "    \x7d,",
      "    \"outputExtension\": \"mp4\",",
      "    \"audio\": \x7b",
      "      \"encoder\": \"copy\",",
      "      \"kbpsPerChannel\": 80",
      "    \x7d,",
      "    \"audioNormalize\": false,",
      "    \"audioTracks\": [",
      "      \x7b",
      "        \"source\": \x7b",
      "          \"kind\": \"external\",",
      "          \"path\": \"film.ac3\"",
      "        \x7d,",
      "        \"enabled\": false,",
      "        \"forced\": false",
      "      \x7d",
      "    ],",
      "    \"subtitleTracks\": []",
      "  \x7d",
      "]"].flatMap fun s => Response.line s.toList
    ∃ answer, run env ⟨none, none, none⟩ = .ok answer ∧
      run (fun _ => none) ⟨some spec, some true, some "out".toList⟩ = .ok answer ∧
      finish .lines (FileSystem.ofFiles fun _ => false) answer = .ok (.ok ⟨1, [], complaint⟩) ∧
      finish .lines (FileSystem.ofFiles fun _ => true) answer = .ok (.ok ⟨0, document, []⟩) ∧
      Outputs.Shows (Style.paint .plain) "film.mkv".toList (some spec) (some "out".toList) outputs
        .json document := by
  intro spec env run outputs complaint document
  have hmoved : Asks env ⟨none, none, none⟩ (some spec) .json (some "out".toList) :=
    ⟨by decide, by decide, by decide, by decide⟩
  have hgiven : Asks (fun _ => none) ⟨some spec, some true, some "out".toList⟩ (some spec) .json
      (some "out".toList) :=
    ⟨by decide, rfl, by decide, rfl⟩
  have hyields : (Specification.resolve "film.mkv".toList (some spec)).Yields
      (FileSystem.ofFiles fun _ => true) outputs := by
    unfold Attempt.Yields
    decide +kernel
  obtain ⟨answer, hanswer, hsame, hend⟩ := answers_all_or_nothing Environment.reads_check hmoved
    hgiven (Style.paint .plain) .lines "film.mkv".toList fun _ => true
  have hrefused : (run env ⟨none, none, none⟩).map
      (finish .lines (FileSystem.ofFiles fun _ => false)) =
        .ok (.ok (.ok ⟨1, [], complaint⟩)) := by
    decide +kernel
  have hshown : (run env ⟨none, none, none⟩).map
      (finish .lines (FileSystem.ofFiles fun _ => true)) =
        .ok (.ok (.ok ⟨0, document, []⟩)) := by
    decide +kernel
  simp only [run] at hrefused hshown
  rw [hanswer] at hrefused hshown
  have hdocument := Except.ok.inj hshown
  rcases hend with ⟨_, _, hother, _⟩ | ⟨outputs', stdout, houtputs, hshows, _, hfinish⟩
  · exact absurd (hother.symm.trans hyields) nofun
  · obtain ⟨_, hstdout, _⟩ := Response.mk.inj (Except.ok.inj (Except.ok.inj
      (hfinish.symm.trans hdocument)))
    rw [houtputs.unique hyields] at hshows
    exact ⟨answer, hanswer, hsame, Except.ok.inj hrefused, hdocument, hstdout ▸ hshows⟩

/-- **More than what is asked for shows on the streams.**  The same refused specification, with the
same arguments, environment and files: the error stream holds the code and the message of the error
only as long as nothing is painted and the logger writes nothing. -/
theorem answer_painted_and_logged :
    let silent : Logger := ⟨fun _ printed => printed, fun _ printed => printed⟩
    let run := fun palette logger =>
      (resolve Environment.check (Style.paint palette) (fun _ => none) "film.mkv".toList
        ⟨some "at=ac3".toList, none, none⟩).map
          (finish logger (FileSystem.ofFiles fun _ => false))
    let message := "Track file not found for 'ac3': film.ac3\n".toList
    let error := " MISSING_TRACK_FILE: ".toList ++ message
    let records := "warn: Invalid output specification: ".toList ++ message ++
      "error: ".toList ++ message
    run .plain silent = .ok (.ok (.ok ⟨1, [], '✗' :: error⟩)) ∧
      run .colored silent = .ok (.ok (.ok ⟨1, [], "\x1b[31m✗\x1b[39m".toList ++ error⟩)) ∧
      run .plain .lines = .ok (.ok (.ok ⟨1, [], records ++ '✗' :: error⟩)) ∧
      run .colored silent ≠ run .plain silent ∧ run .plain .lines ≠ run .plain silent := by
  intro silent run message error records
  have hprinted : run .plain silent = .ok (.ok (.ok ⟨1, [], '✗' :: error⟩)) := by decide +kernel
  have hpainted : run .colored silent =
      .ok (.ok (.ok ⟨1, [], "\x1b[31m✗\x1b[39m".toList ++ error⟩)) := by
    decide +kernel
  have hlogged : run .plain .lines = .ok (.ok (.ok ⟨1, [], records ++ '✗' :: error⟩)) := by
    decide +kernel
  refine ⟨hprinted, hpainted, hlogged, ?_, ?_⟩
  · rw [hpainted, hprinted]
    decide +kernel
  · rw [hlogged, hprinted]
    decide +kernel

end Program

end Transcode
