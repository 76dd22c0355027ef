/-
**An output is known from its document.**

The document of an output has a field for everything that the output is made of, so no two outputs
have the same one.  The overrides stand at the end, if there are any, in the order in which they
were set; as they have names of their own they are known whatever that order was.

Main results:

* `Transcode.Video.document_injective`, `Transcode.Track.document_injective` — the parts of an
  output are known from their documents;
* `Transcode.Output.eq_of_fields_eq` — **an output is known from its fields**.
-/

import Mathlib.Data.List.Basic
import Transcode.Output.Basic

set_option relaxedAutoImplicit false
set_option autoImplicit false

namespace Transcode

theorem Json.ofFields_injective : Function.Injective ofFields := by
  have hfield : Function.Injective fun f : String × Json => (f.1.toList, f.2) := by
    rintro ⟨name, value⟩ ⟨other, document⟩ hpair
    obtain ⟨hname, hvalue⟩ := Prod.mk.inj hpair
    exact Prod.ext (String.toList_injective hname) hvalue
  intro fields others h
  exact List.map_injective_iff.2 hfield (Json.object.inj h)

/-! ### Parts of an output -/

theorem Video.document_injective : Function.Injective document := by
  have hname : ∀ p q : Profile, p.name = q.name ↔ p = q := fun _ _ =>
    ⟨Profile.name_injective, congrArg _⟩
  intro v w h
  obtain ⟨hencoder, hfields⟩ := List.cons.inj (Json.ofFields_injective h)
  have he : v.encoder = w.encoder :=
    VideoEncoder.name_injective (Json.text.inj (Prod.mk.inj hencoder).2)
  cases v <;> cases w <;>
    simp_all [encoder, fields, Json.optional, crf?, speed?, profile?, grain?, compat?]

theorem TrackSource.document_injective : Function.Injective document := by
  intro a b h
  cases a with
  | video index =>
      cases b with
      | video index' =>
          have hfields := Json.ofFields_injective h
          simp_all
      | external path' number' =>
          have hfields := Json.ofFields_injective h
          simp_all
  | external path number =>
      cases b with
      | video index' =>
          have hfields := Json.ofFields_injective h
          simp_all
      | external path' number' =>
          have hfields := Json.ofFields_injective h
          cases number <;> cases number' <;> simp_all [Json.optional]

theorem Track.document_injective : Function.Injective document := by
  rintro ⟨source, enabled, forced⟩ ⟨other, enabled', forced'⟩ h
  have hfields := Json.ofFields_injective h
  simp only [List.cons.injEq, Prod.mk.injEq, true_and, Json.bool.injEq, and_true] at hfields
  obtain ⟨hsource, rfl, rfl⟩ := hfields
  rw [TrackSource.document_injective hsource]

theorem Resolution.document_injective : Function.Injective document := by
  rintro ⟨width, height⟩ ⟨width', height'⟩ h
  have hfields := Json.ofFields_injective h
  simp_all

/-! ### Outputs -/

namespace Output

/-- The overrides are known from their fields, in whatever order they stand. -/
theorem overrides_eq {o o' : Output} {first first' : Override}
    (h : o.overrideFields first = o'.overrideFields first') :
    o.bitDepth = o'.bitDepth ∧ o.resolution = o'.resolution := by
  have hdepth : ∀ (o : Output) (first : Override),
      (o.overrideFields first).lookup "bitDepthOverride" =
        o.bitDepth.map fun d => .number d.bits := by
    rintro ⟨_, _, depth, resolution, _, _, _, _, _⟩ first
    cases first <;> cases depth <;> cases resolution <;> rfl
  have hresolution : ∀ (o : Output) (first : Override),
      (o.overrideFields first).lookup "resolutionOverride" =
        o.resolution.map Resolution.document := by
    rintro ⟨_, _, depth, resolution, _, _, _, _, _⟩ first
    cases first <;> cases depth <;> cases resolution <;> rfl
  have hbits : Function.Injective fun d : BitDepth => Json.number d.bits := by
    intro c d
    cases c <;> cases d <;> simp [BitDepth.bits]
  refine ⟨Option.map_injective hbits ?_, Option.map_injective Resolution.document_injective ?_⟩
  · rw [← hdepth o first, ← hdepth o' first', h]
  · rw [← hresolution o first, ← hresolution o' first', h]

/-- **An output is known from its fields**, whichever override was set first. -/
theorem eq_of_fields_eq {o o' : Output} {first first' : Override}
    (h : o.fields first = o'.fields first') : o = o' := by
  simp only [fields, List.cons_append, List.cons.injEq, Prod.mk.injEq, true_and] at h
  obtain ⟨hvideo, hcontainer, haudio, hnormalize, haudioTracks, hsubtitles, hoverrides⟩ := h
  obtain ⟨hdepth, hresolution⟩ := overrides_eq hoverrides
  have haudio := Json.ofFields_injective haudio
  simp only [List.cons.injEq, Prod.mk.injEq, true_and, Json.text.injEq, Json.number.injEq,
    and_true] at haudio
  have htracks := List.map_injective_iff.2 Track.document_injective
  cases o
  cases o'
  simp only [Output.mk.injEq]
  exact ⟨Video.document_injective hvideo, Container.name_injective (Json.text.inj hcontainer),
    hdepth, hresolution, AudioEncoder.name_injective haudio.1, haudio.2, Json.bool.inj hnormalize,
    htracks (Json.list.inj haudioTracks), htracks (Json.list.inj hsubtitles)⟩

end Output

end Transcode
