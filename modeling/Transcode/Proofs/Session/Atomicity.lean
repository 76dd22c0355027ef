/-
**A refused setting is as if it had never been given.**

Settings are applied to an output in place, and an error of one is caught before the next is
applied.  Each setting is checked before anything is set, so where its edit breaks off the output is
as it was.  The check looks at the encoder only, which no setting changes; so whether a setting is
refused does not depend on what was applied before, and after all of them the output is the one that
the settings which were not refused lead to.

Main definitions:

* `Transcode.Output.Edit.IsAtomic` — a setting is applied whole or not at all.

Main results:

* `Transcode.Output.Edit.on_apply` — what applying a setting in place makes of an output;
* `Transcode.Output.Edit.isAtomic_apply` — every setting is applied whole or not at all;
* `Transcode.Output.Edit.each_eq` — several settings are those that are not refused;
* `Transcode.Output.Edit.each_skips_refused` — **a refused setting is as if it had never been
  given**.
-/

import Transcode.Output.Edit
import Transcode.Proofs.Output.Field
import Transcode.Proofs.Session.Validity

set_option relaxedAutoImplicit false
set_option autoImplicit false

namespace Transcode

namespace Output.Edit

/-! ### One setting -/

theorem on_check (filter : Filter) (value : Int) (allowed : Range) (o : Output) :
    (check filter value allowed).on o =
      match allowed.refusal? filter value with
      | some e => (.error e, o)
      | none => (.ok (), o) := by
  unfold check Range.refusal?
  by_cases hin : allowed.contains value = true
  · have hrange := Range.contains_iff.1 hin
    rw [if_neg (by omega), if_pos hin, on_pure]
  · have hout : value < allowed.min ∨ allowed.max < value := by
      rw [Range.contains_iff] at hin
      omega
    rw [if_pos hout, if_neg hin, on_throw]

/-- A number is set once it is checked. -/
theorem on_check_setVideo (filter : Filter) (value : Int) (allowed : Range) (set : Video → Video)
    (o : Output) :
    (check filter value allowed >>= fun _ => setVideo set).on o =
      match allowed.refusal? filter value with
      | some e => (.error e, o)
      | none => (.ok (), { o with video := set o.video }) := by
  rw [on_bind, on_check]
  cases allowed.refusal? filter value <;> rfl

theorem on_setQuantizer (value : Int) (o : Output) :
    (setQuantizer value).on o =
      match Token.refusal? o.video.encoder (.quantizer value) with
      | some e => (.error e, o)
      | none => (.ok (), { o with video := o.video.withCrf value }) := by
  obtain ⟨video⟩ := o
  cases video with
  | copy => rfl
  | _ => exact on_check_setVideo _ _ _ _ _

/-- A number that only the AV1 encoders have is set once it is checked; where the encoder is another
one, setting it must make no difference. -/
theorem on_setPinned (filter : Filter) (allowed : Range) (set : Video → Video) (value : Int)
    {o : Output} (hset : o.video.encoder.isPinned = false → set o.video = o.video) :
    (setPinned filter allowed set value).on o =
      match if o.video.encoder.isPinned then allowed.refusal? filter value else none with
      | some e => (.error e, o)
      | none => (.ok (), { o with video := set o.video }) := by
  unfold setPinned
  rw [on_get_bind]
  cases hpinned : o.video.encoder.isPinned with
  | true => exact on_check_setVideo filter value allowed set o
  | false =>
      rw [hset hpinned]
      rfl

theorem on_setBitrate (kbps : Int) (o : Output) :
    (setBitrate kbps).on o =
      match Token.refusal? o.video.encoder (.audioBitrate kbps) with
      | some e => (.error e, o)
      | none => (.ok (), { o with audioBitrate := kbps }) := by
  unfold setBitrate Token.refusal?
  by_cases hlow : kbps < Range.bitrate.min
  · simp only [if_pos hlow]
    rfl
  · simp only [if_neg hlow]
    rfl

/-- **What applying a setting in place makes of an output**: nothing if the setting is refused, and
otherwise the setting is put in. -/
theorem on_apply (token : Token) (o : Output) :
    (apply token).on o =
      match Token.refusal? o.video.encoder token with
      | some e => (.error e, o)
      | none => (.ok (), o.put token) := by
  cases token with
  | quantizer value => exact on_setQuantizer value o
  | speed value =>
      refine on_setPinned .speed Range.speed (Video.withSpeed value) value ?_
      cases o.video with
      | aom | rav1e | svt => exact nofun
      | x264 | x265 | copy => exact fun _ => rfl
  | grain value =>
      refine on_setPinned .grain Range.grain (Video.withGrain value) value ?_
      cases o.video with
      | aom | rav1e | svt => exact nofun
      | x264 | x265 | copy => exact fun _ => rfl
  | audioBitrate kbps => exact on_setBitrate kbps o
  | _ => rfl

/-- Applying a setting in place ends as applying it to a copy does, and where that fails the output
is as it was. -/
theorem on_apply_eq (token : Token) (o : Output) :
    (apply token).on o =
      match o.apply token with
      | .error e => (.error e, o)
      | .ok o' => (.ok (), o') := by
  rw [on_apply, Output.apply]
  cases Token.refusal? o.video.encoder token <;> rfl

theorem encoder_on_apply (token : Token) (o : Output) :
    ((apply token).on o).2.video.encoder = o.video.encoder := by
  rw [on_apply]
  cases Token.refusal? o.video.encoder token with
  | some e => rfl
  | none => exact encoder_put o token

/-- How applying a setting ends depends on the setting and the encoder only. -/
theorem on_apply_congr (token : Token) {o o' : Output}
    (h : o'.video.encoder = o.video.encoder) :
    ((apply token).on o').1 = ((apply token).on o).1 := by
  rw [on_apply, on_apply, h]
  cases Token.refusal? o.video.encoder token <;> rfl

/-- A setting is applied whole or not at all. -/
structure IsAtomic (token : Token) (o : Output) : Prop where
  /-- Where the edit breaks off, the output is as it was. -/
  unchanged : ∀ e, ((apply token).on o).1 = .error e → ((apply token).on o).2 = o
  /-- The encoder stays. -/
  encoder : ((apply token).on o).2.video.encoder = o.video.encoder
  /-- The video configuration has the fields that it had. -/
  fields : ((apply token).on o).2.video.fields.map Prod.fst = o.video.fields.map Prod.fst
  /-- How the edit ends is a matter of the setting and the encoder. -/
  outcome : ∀ o', o'.video.encoder = o.video.encoder →
    ((apply token).on o').1 = ((apply token).on o).1
  /-- No field changes but that of the setting's filter. -/
  frame : ∀ f, f ≠ token.filter → ((apply token).on o).2.held f = o.held f
  /-- Applied to a copy the setting ends in the same way, and makes the same of the output. -/
  copy : o.apply token = ((apply token).on o).1.map fun _ => ((apply token).on o).2

/-- **Every setting is applied whole or not at all**, whatever the output is like. -/
theorem isAtomic_apply (token : Token) (o : Output) : IsAtomic token o where
  unchanged := by
    rw [on_apply]
    cases Token.refusal? o.video.encoder token with
    | some e => exact fun _ _ => rfl
    | none => exact fun _ h => absurd h (by simp)
  encoder := encoder_on_apply token o
  fields := by rw [Video.map_fst_fields, Video.map_fst_fields, encoder_on_apply]
  outcome := fun _ h => on_apply_congr token h
  frame := by
    intro f hf
    rw [on_apply]
    cases Token.refusal? o.video.encoder token with
    | some e => rfl
    | none => exact held_put_of_ne o (Ne.symm hf)
  copy := by
    rw [on_apply_eq]
    cases o.apply token <;> rfl

/-! ### Several settings -/

/-- The settings that an output takes: their edits do not break off. -/
def taken (o : Output) (tokens : List Token) : List Token :=
  tokens.filter fun token => ((apply token).on o).1.isOk

/-- The settings that an output takes are those that its encoder does not refuse. -/
theorem mem_taken_iff {token : Token} {o : Output} {tokens : List Token} :
    token ∈ taken o tokens ↔ token ∈ tokens ∧ Token.refusal? o.video.encoder token = none := by
  unfold taken
  rw [List.mem_filter, on_apply]
  cases Token.refusal? o.video.encoder token <;> simp [Except.isOk, Except.toBool]

theorem taken_congr {o o' : Output} (h : o'.video.encoder = o.video.encoder)
    (tokens : List Token) : taken o' tokens = taken o tokens := by
  unfold taken
  simp only [on_apply_congr _ h]

/-- The settings that are taken are put in one by one. -/
theorem foldl_put_taken_cons (token : Token) (tokens : List Token) (o : Output) :
    (taken o (token :: tokens)).foldl put o =
      (taken o tokens).foldl put ((apply token).on o).2 := by
  have hcons : taken o (token :: tokens) =
      if ((apply token).on o).1.isOk then token :: taken o tokens else taken o tokens :=
    List.filter_cons
  rw [hcons, on_apply]
  cases Token.refusal? o.video.encoder token <;> rfl

/-- **Several settings are those that are taken**: how each edit ends can be told from the output
before all of them, and only the settings that are taken are put in. -/
theorem each_eq (tokens : List Token) (o : Output) :
    each tokens o =
      (tokens.map fun token => ((apply token).on o).1, (taken o tokens).foldl put o) := by
  induction tokens generalizing o with
  | nil => rfl
  | cons token tokens ih =>
      -- the encoder stays, and with it how the later edits end
      have hencoder := encoder_on_apply token o
      rw [each_cons, ih, taken_congr hencoder, foldl_put_taken_cons, List.map_cons]
      simp only [on_apply_congr _ hencoder]

/-- Of settings that are taken all are taken. -/
theorem taken_taken (o : Output) (tokens : List Token) :
    taken o (taken o tokens) = taken o tokens := by
  unfold taken
  rw [List.filter_filter]
  simp only [Bool.and_self]

end Output.Edit

/-! ### Sessions -/

namespace Session

open Output

/-- Applying a setting in a session edits the output in place. -/
theorem output_step_apply (s : Session) (token : Token) :
    (s.step (.apply (.setting token))).2 =
      { s with output := ((Edit.apply token).on s.output).2 } := by
  rw [Edit.on_apply_eq, step, applyRequest]
  cases s.output.apply token <;> rfl

/-- A session in which settings are applied ends with the output that is edited by each of them. -/
theorem getLast?_outputs_apply (s : Session) (tokens : List Token) :
    (s.outputs (tokens.map fun token => .apply (.setting token))).getLast? =
      some (Edit.each tokens s.output).2 := by
  induction tokens generalizing s with
  | nil => rfl
  | cons token tokens ih =>
      -- the outputs after the first step begin with one, so the last of all is the last of them
      have htail : ∀ t : Session, ∀ actions, (s.output :: t.outputs actions).getLast? =
          (t.outputs actions).getLast? := fun _ _ => List.getLast?_cons_cons
      rw [List.map_cons, outputs_cons, htail, ih, output_step_apply, Edit.each_cons]

end Session

namespace Output.Edit

/-! ### Refused settings -/

/-- Settings that are taken can be applied to a copy as well. -/
theorem applyAll_taken (o : Output) (tokens : List Token) :
    o.applyAll (taken o tokens) = .ok (each tokens o).2 := by
  rw [each_eq]
  exact applyAll_eq_ok_iff.2 ⟨fun token htoken => (mem_taken_iff.1 htoken).2, rfl⟩

/-- The edits of settings that are taken do not break off, and lead where all of them lead. -/
theorem each_taken (o : Output) (tokens : List Token) :
    each (taken o tokens) o = ((taken o tokens).map fun _ => .ok (), (each tokens o).2) := by
  rw [each_eq, each_eq, taken_taken]
  refine congrArg (·, _) (List.map_congr_left ?_)
  intro token htoken
  rw [on_apply, (mem_taken_iff.1 htoken).2]

/-- **A refused setting is as if it had never been given.**  Apply settings to an output in place,
one after the other, whatever the output is like and however the edits end.  Every edit is whole or
not at all; how it ends can be told from the output before all of them; the settings that are taken
lead to the same output without the others, applied in place or to a copy; every field ends up with
the last of them that is put into it, or with what it held; and a session in which the settings are
applied ends there too. -/
theorem each_skips_refused (o : Output) (tokens : List Token) :
    (∀ token o', IsAtomic token o') ∧
      (each tokens o).1 = tokens.map (fun token => ((apply token).on o).1) ∧
      each (taken o tokens) o = ((taken o tokens).map fun _ => .ok (), (each tokens o).2) ∧
      o.applyAll (taken o tokens) = .ok (each tokens o).2 ∧
      (∀ f, (each tokens o).2.held f =
        (Token.last? (Token.puts? o.video.encoder f) (taken o tokens)).or (o.held f)) ∧
      ∀ files, (Session.outputs ⟨o, files⟩
        (tokens.map fun token => .apply (.setting token))).getLast? = some (each tokens o).2 := by
  refine ⟨isAtomic_apply, ?_, each_taken o tokens, applyAll_taken o tokens, ?_, ?_⟩
  · rw [each_eq]
  · intro f
    rw [each_eq, held_foldl_put]
  · exact fun files => Session.getLast?_outputs_apply ⟨o, files⟩ tokens

/-- The quantizer that was out of range from the beginning is replaced; the speed that is too high
and the bitrate that is too low are as if they had not been given. -/
example :
    let o := { Output.ofEncoder .svt with video := .svt 99 10 .film 64, audioBitrate := -1 }
    let e := ParseError.outOfRange "s".toList 11 ⟨0, 10⟩ none
    let low := ParseError.bitrateTooLow 0 Range.bitrate
    each [.quantizer 40, .speed 11, .audioBitrate 0, .compat true] o =
      ([.ok (), .error e, .error low, .ok ()], { o with video := .svt 40 10 .film 64 }) := by
  decide

end Output.Edit

end Transcode
