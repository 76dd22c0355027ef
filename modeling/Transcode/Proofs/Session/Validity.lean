/-
**No session leaves the valid outputs.**

What a step makes of an output is one of a few things: the output stays, it is replaced by one that
is described from nothing, its video is replaced by what an encoder starts from, or a setting that
its encoder does not refuse is put into it.  Each of them keeps an output sound, whatever the
numbers in the setting are and whichever encoder it is by then; and each keeps it valid, if the
setting was read from a text, no matter when and among which files.  By induction on the steps this
holds all through a session, as long as no output is loaded from outside.

Main definitions:

* `Transcode.Token.IsRead` — a setting that comes from a text;
* `Transcode.Session.outputs` — the outputs that a session goes through;
* `Transcode.Session.Changes` — what a step can make of an output.

Main results:

* `Transcode.Session.changes_step` — a step makes nothing else of an output;
* `Transcode.Session.Changes.isSound`, `Transcode.Session.Changes.isValid` — what a step keeps;
* `Transcode.Session.outputs_induction` — what every step keeps is kept all through a session;
* `Transcode.Session.outputs_stay_valid` — **no session leaves the valid outputs**.
-/

import Transcode.Proofs.Specification.Validity
import Transcode.Session

set_option relaxedAutoImplicit false
set_option autoImplicit false

namespace Transcode

/-! ### Settings that are read -/

/-- A setting that comes from a text, read beside some source and in some file system: the setting
of the clause at its front, or one of those of the text as a segment. -/
inductive Token.IsRead : Token → Prop where
  | clause {source text rest : Text} {fs : FileSystem} {token : Token}
      (h : (Clause.parse source text).Yields fs (token, rest)) : IsRead token
  | segment {source text : Text} {fs : FileSystem} {tokens : List Token} {token : Token}
      (h : (Segment.parse source text).Yields fs tokens) (htoken : token ∈ tokens) : IsRead token

/-- A setting that comes from a text fits. -/
theorem Token.IsRead.fits {token : Token} (h : token.IsRead) : ∃ has, token.Fits has := by
  cases h with
  | clause h => exact ⟨_, Clause.fits_of_yields_parse h⟩
  | segment h htoken => exact ⟨_, Segment.fits_of_yields_parse h token htoken⟩

/-- Whatever settings describe is sound. -/
theorem Output.isSound_of_resolve {tokens : List Token} {o : Output} (h : resolve tokens = .ok o) :
    o.IsSound :=
  applyAll_induction (isSound_ofEncoder _) h fun _ _ _ ho hnone => ho.put hnone

namespace Session

/-! ### What a step does -/

/-- The end of a computation among the files of a session is the end of its run there. -/
theorem attempt_eq_ok_iff {α : Type} {s : Session} {x : Attempt α} {a : α} :
    s.attempt x = .ok a ↔ x.Yields (FileSystem.ofFiles s.hasFile) a := by
  unfold attempt Attempt.Yields
  cases (x.trace (FileSystem.ofFiles s.hasFile)).result with
  | error message => simp
  | ok r => cases r <;> simp [Except.mapError]

/-- What a step can make of an output.  A step that fails, and one that is about the files or asks
for a report, makes nothing of it. -/
inductive Changes (fs : FileSystem) (o : Output) : Step → Output → Prop where
  | stay (action : Step) : Changes fs o action o
  | reset : Changes fs o .reset .default
  | encoder (e : VideoEncoder) : Changes fs o (.encoder e) { o with video := .default e }
  | load (o' : Output) : Changes fs o (.load o') o'
  | apply {token : Token} (h : Token.refusal? o.video.encoder token = none) :
      Changes fs o (.apply (.setting token)) (o.put token)
  | clause {source text rest : Text} {token : Token}
      (hread : (Clause.parse source text).Yields fs (token, rest))
      (h : Token.refusal? o.video.encoder token = none) :
      Changes fs o (.clause source text) (o.put token)
  | segment {source text : Text} {tokens : List Token} {o' : Output}
      (hread : (Segment.parse source text).Yields fs tokens) (h : Output.resolve tokens = .ok o') :
      Changes fs o (.segment source text) o'

/-- A clause that is read and applied gives a setting that is not refused. -/
theorem yields_applyClause {source text rest : Text} {fs : FileSystem} {o o' : Output}
    {token : Token} (h : (applyClause source text o).Yields fs (o', token, rest)) :
    (Clause.parse source text).Yields fs (token, rest) ∧ o.apply token = .ok o' := by
  obtain ⟨⟨read, after⟩, hread, h⟩ := Attempt.yields_bind.1 h
  obtain ⟨applied, happlied, h⟩ := Attempt.yields_bind.1 h
  obtain ⟨rfl, hpair⟩ := Prod.mk.inj (Attempt.yields_pure.1 h)
  obtain ⟨rfl, rfl⟩ := Prod.mk.inj hpair
  exact ⟨hread, Attempt.yields_ofExcept.1 happlied⟩

/-- **A step makes nothing else of an output.** -/
theorem changes_step (s : Session) (action : Step) :
    Changes (FileSystem.ofFiles s.hasFile) s.output action (s.step action).2.output := by
  cases action with
  | reset => exact .reset
  | encoder e => exact .encoder e
  | load o => exact .load o
  | touch file | remove file | report source dir => exact .stay _
  | apply request =>
      cases request with
      | other kind => exact .stay _
      | setting token =>
          cases ha : s.output.apply token with
          | error e =>
              simp only [step, Output.applyRequest, ha, Except.mapError]
              exact .stay _
          | ok o =>
              obtain ⟨hnone, rfl⟩ := Output.apply_eq_ok_iff.1 ha
              simp only [step, Output.applyRequest, ha, Except.mapError]
              exact .apply hnone
  | clause source text =>
      cases ha : s.attempt (applyClause source text s.output) with
      | error e =>
          simp only [step, ha]
          exact .stay _
      | ok r =>
          obtain ⟨hread, happlied⟩ := yields_applyClause (attempt_eq_ok_iff.1 ha)
          obtain ⟨hnone, hput⟩ := Output.apply_eq_ok_iff.1 happlied
          simp only [step, ha, ← hput]
          exact .clause hread hnone
  | segment source text =>
      cases ha : s.attempt (Specification.describe Output.resolve source text) with
      | error e =>
          simp only [step, ha]
          exact .stay _
      | ok o =>
          obtain ⟨tokens, hread, hresolve⟩ := Attempt.yields_bind.1 (attempt_eq_ok_iff.1 ha)
          simp only [step, ha]
          exact .segment hread (Attempt.yields_ofExcept.1 hresolve)

/-! ### What a step keeps -/

section Steps

variable {fs : FileSystem} {o o' : Output} {action : Step}

/-- A step keeps an output sound, unless it loads another one. -/
theorem Changes.isSound (h : Changes fs o action o') (ho : o.IsSound)
    (hload : ∀ loaded, action ≠ .load loaded) : o'.IsSound := by
  cases h with
  | stay => exact ho
  | reset => exact Output.isSound_ofEncoder _
  | encoder e => exact ⟨Output.isSound_default e, ho.bitrate⟩
  | load => exact absurd rfl (hload _)
  | apply hnone => exact ho.put hnone
  | clause _ hnone => exact ho.put hnone
  | segment _ hresolve => exact Output.isSound_of_resolve hresolve

/-- A step keeps an output valid, unless it loads another one or applies a setting that does not
come from a text. -/
theorem Changes.isValid (h : Changes fs o action o') (ho : o.IsValid)
    (hload : ∀ loaded, action ≠ .load loaded)
    (hread : ∀ token, action = .apply (.setting token) → token.IsRead) : o'.IsValid := by
  cases h with
  | stay => exact ho
  | reset => exact Output.isValid_ofEncoder _
  | encoder e =>
      exact ⟨⟨Output.isSound_default e, ho.sound.bitrate⟩, ho.bitrate, ho.resolution, ho.indexed⟩
  | load => exact absurd rfl (hload _)
  | apply hnone =>
      obtain ⟨has, hfits⟩ := (hread _ rfl).fits
      exact ho.put hnone hfits
  | clause htext hnone => exact ho.put hnone (Clause.fits_of_yields_parse htext)
  | segment htext hresolve =>
      exact (Output.isValid_of_resolve (Segment.fits_of_yields_parse htext) hresolve).1

end Steps

/-! ### Whole sessions -/

/-- The outputs that a session goes through: the one that it begins with, and the one after every
step. -/
def outputs (s : Session) (actions : List Step) : List Output :=
  s.output :: (s.run actions).map Prod.snd

theorem outputs_cons (s : Session) (action : Step) (actions : List Step) :
    s.outputs (action :: actions) = s.output :: (s.step action).2.outputs actions := rfl

/-- What every step keeps is kept all through a session. -/
theorem outputs_induction {P : Output → Prop} {s : Session} {actions : List Step} (h : P s.output)
    (hstep : ∀ fs o o' action, action ∈ actions → Changes fs o action o' → P o → P o') :
    ∀ o ∈ s.outputs actions, P o := by
  induction actions generalizing s with
  | nil =>
      intro o ho
      obtain rfl := List.mem_singleton.1 ho
      exact h
  | cons action actions ih =>
      intro o ho
      rw [outputs_cons] at ho
      rcases List.mem_cons.1 ho with rfl | hlater
      · exact h
      · have hnext := hstep _ _ _ action (by simp) (s.changes_step action) h
        refine ih hnext ?_ o hlater
        intro fs o o' later hmem
        exact hstep fs o o' later (by simp [hmem])

/-- **No session leaves the valid outputs.**  Begin with the default output and go through any steps
but the loading of an output.  All the way the video has the fields of its encoder, and the encoders
accept every setting; and if every setting that is applied comes from a text, everything fits where
it is stored. -/
theorem outputs_stay_valid (files : List Text) {actions : List Step}
    (hload : ∀ loaded, Step.load loaded ∉ actions) :
    (∀ o ∈ (start files).outputs actions,
      o.video.fields.map Prod.fst = o.video.encoder.fieldNames ∧ o.IsSound) ∧
    ((∀ token, Step.apply (.setting token) ∈ actions → token.IsRead) →
      ∀ o ∈ (start files).outputs actions, o.IsValid) := by
  have hnever : ∀ action ∈ actions, ∀ loaded, action ≠ .load loaded := by
    rintro _ haction loaded rfl
    exact hload loaded haction
  constructor
  · have hsound : ∀ o ∈ (start files).outputs actions, o.IsSound := by
      refine outputs_induction (Output.isSound_ofEncoder _) ?_
      intro fs o o' action haction hchanges ho
      exact hchanges.isSound ho (hnever action haction)
    exact fun o ho => ⟨o.video.map_fst_fields, hsound o ho⟩
  · intro hread
    refine outputs_induction (Output.isValid_ofEncoder _) ?_
    intro fs o o' action haction hchanges ho
    refine hchanges.isValid ho (hnever action haction) ?_
    rintro token rfl
    exact hread token haction

/-- A file comes and goes, and what was found in between stays; what the encoder of the moment
refuses, or what is not found any more, is passed over. -/
theorem outputs_stay_valid_refused :
    let source := "film.mkv".toList
    let actions : List Step :=
      [.encoder .svt, .clause source "q=64".toList, .touch "film.ac3".toList,
        .clause source "at=1.ac3-e".toList, .remove "film.ac3".toList,
        .segment source "q=10,at=ac3".toList, .apply (.setting (.quantizer 55)), .encoder .x265,
        .apply (.setting (.quantizer 55)), .apply (.setting (.audioBitrate 0))]
    let o := { Output.ofEncoder .x265 with
      audioTracks := [⟨.external "film.ac3".toList (some 1), true, false⟩] }
    (∀ loaded, Step.load loaded ∉ actions) ∧
      (∀ token, Step.apply (.setting token) ∈ actions → token.IsRead) ∧
      o = ((start []).outputs actions).getLast (List.cons_ne_nil _ _) ∧ o.IsSound ∧ o.IsValid := by
  intro source actions o
  have hload : ∀ loaded, Step.load loaded ∉ actions := by simp [actions]
  have hread : ∀ token, Step.apply (.setting token) ∈ actions → token.IsRead := by
    have hquantizer : (Segment.parse source "q=55,ab=0".toList).Yields
        (FileSystem.ofFiles fun _ => false) [.quantizer 55, .audioBitrate 0] := by
      unfold Attempt.Yields
      decide +kernel
    intro token htoken
    refine .segment hquantizer ?_
    simpa [actions] using htoken
  have hlast : o = ((start []).outputs actions).getLast (List.cons_ne_nil _ _) := by decide +kernel
  have hmem : o ∈ (start []).outputs actions := by
    rw [hlast]
    exact List.getLast_mem _
  obtain ⟨hsound, hvalid⟩ := outputs_stay_valid [] hload
  exact ⟨hload, hread, hlast, (hsound o hmem).2, hvalid hread o hmem⟩

end Session

end Transcode
