/-
**Tracks influence nothing but themselves.**

Settings with tracks are put into an output like the others, but no other field depends on the
tracks, and neither does what is refused.  The tracks of an output are those of the last list that
the settings give.  So settings that differ in their tracks only describe outputs that differ in
their tracks only, or are refused alike.

Main definitions:

* `Transcode.Token.trackless`, `Transcode.Output.trackless` — a setting, and an output, without its
  tracks;
* `Transcode.Setting.lastList` — the last list of tracks that some settings give.

Main results:

* `Transcode.Output.resolve_trackless` — **what settings describe without their tracks**;
* `Transcode.Output.audioTracks_of_resolve`, `Transcode.Output.subtitleTracks_of_resolve` — the
  tracks of an output.
-/

import Transcode.Output.Resolve
import Transcode.Proofs.Output.Fold
import Transcode.Proofs.Track.Found

set_option relaxedAutoImplicit false
set_option autoImplicit false

namespace Transcode

/-! ### Without tracks -/

/-- A setting without its tracks. -/
def Token.trackless : Token → Token
  | .audioTracks _ => .audioTracks []
  | .subtitleTracks _ => .subtitleTracks []
  | token => token

namespace Output

/-- An output without its tracks. -/
def trackless (o : Output) : Output := { o with audioTracks := [], subtitleTracks := [] }

theorem trackless_put (o : Output) (token : Token) :
    (o.put token).trackless = o.trackless.put token.trackless := by
  cases token <;> rfl

theorem refusal?_trackless (encoder : VideoEncoder) (token : Token) :
    Token.refusal? encoder token.trackless = Token.refusal? encoder token := by
  cases token <;> rfl

theorem trackless_apply (o : Output) (token : Token) :
    o.trackless.apply token.trackless = (o.apply token).map trackless := by
  have hvideo : o.trackless.video = o.video := rfl
  unfold apply
  rw [hvideo, refusal?_trackless]
  cases Token.refusal? o.video.encoder token with
  | none => simp only [trackless_put, Except.map]
  | some e => rfl

theorem trackless_applyAll (o : Output) (tokens : List Token) :
    o.trackless.applyAll (tokens.map Token.trackless) = (o.applyAll tokens).map trackless := by
  induction tokens generalizing o with
  | nil => rfl
  | cons token tokens ih =>
      rw [List.map_cons, applyAll_cons, applyAll_cons, trackless_apply]
      cases o.apply token with
      | error e => rfl
      | ok next => exact ih next

theorem start_trackless (tokens : List Token) :
    start (tokens.map Token.trackless) = start tokens := by
  have hencoder : ∀ token : Token, Setting.videoEncoder? token.trackless = token.videoEncoder? := by
    intro token
    cases token <;> rfl
  unfold start Token.firstEncoder?
  rw [List.findSome?_map]
  congr 3
  funext token
  exact hencoder token

/-- **What settings describe without their tracks** is what they describe, without its tracks. -/
theorem resolve_trackless (tokens : List Token) :
    resolve (tokens.map Token.trackless) = (resolve tokens).map trackless := by
  unfold resolve
  rw [start_trackless, ← trackless_applyAll]
  rfl

/-- Settings that differ in their tracks only describe outputs that do, or are refused alike. -/
theorem trackless_resolve_congr {tokens tokens' : List Token}
    (h : tokens.map Token.trackless = tokens'.map Token.trackless) :
    (resolve tokens).map trackless = (resolve tokens').map trackless := by
  rw [← resolve_trackless, h, resolve_trackless]

end Output

/-! ### The last list of tracks -/

namespace Setting

variable {σ τ : Type} {R : σ → τ → Prop}

/-- The audio tracks that a setting gives, if it gives any. -/
def audioList? : Setting τ → Option (List τ)
  | audioTracks ts => some ts
  | _ => none

/-- The subtitle tracks that a setting gives, if it gives any. -/
def subtitleList? : Setting τ → Option (List τ)
  | subtitleTracks ts => some ts
  | _ => none

/-- The last list that some settings give; empty if they give none. -/
def lastList (list? : Setting τ → Option (List τ)) (settings : List (Setting τ)) : List τ :=
  settings.foldl (fun last s => (list? s).getD last) []

/-- In settings with related tracks the last lists are related. -/
theorem forall₂_lastList {list? : Setting σ → Option (List σ)}
    {list'? : Setting τ → Option (List τ)}
    (hlist : ∀ s t, Related R s t → ∀ last last', List.Forall₂ R last last' →
      List.Forall₂ R ((list? s).getD last) ((list'? t).getD last'))
    {ss : List (Setting σ)} {ts : List (Setting τ)} (h : List.Forall₂ (Related R) ss ts) :
    List.Forall₂ R (lastList list? ss) (lastList list'? ts) := by
  -- the lists found so far are related at every point of the way
  suffices hfold : ∀ last last', List.Forall₂ R last last' →
      List.Forall₂ R (ss.foldl (fun last s => (list? s).getD last) last)
        (ts.foldl (fun last t => (list'? t).getD last) last') from hfold [] [] .nil
  induction h with
  | nil => exact fun _ _ hlast => hlast
  | cons hst _ ih => exact fun last last' hlast => ih _ _ (hlist _ _ hst last last' hlast)

theorem forall₂_lastList_audio {ss : List (Setting σ)} {ts : List (Setting τ)}
    (h : List.Forall₂ (Related R) ss ts) :
    List.Forall₂ R (lastList audioList? ss) (lastList audioList? ts) := by
  refine forall₂_lastList ?_ h
  intro s t hst last last' hlast
  cases hst with
  | audioTracks hts => exact hts
  | _ => exact hlast

theorem forall₂_lastList_subtitle {ss : List (Setting σ)} {ts : List (Setting τ)}
    (h : List.Forall₂ (Related R) ss ts) :
    List.Forall₂ R (lastList subtitleList? ss) (lastList subtitleList? ts) := by
  refine forall₂_lastList ?_ h
  intro s t hst last last' hlast
  cases hst with
  | subtitleTracks hts => exact hts
  | _ => exact hlast

end Setting

/-! ### The tracks of an output -/

namespace Output

/-- A field into which settings put lists ends up with the last one. -/
theorem field_foldl_put {field : Output → List Track} {list? : Token → Option (List Track)}
    (hput : ∀ o token, field (o.put token) = (list? token).getD (field o)) (o : Output)
    (tokens : List Token) :
    field (tokens.foldl put o) = tokens.foldl (fun last t => (list? t).getD last) (field o) := by
  induction tokens generalizing o with
  | nil => rfl
  | cons token tokens ih => rw [List.foldl_cons, ih, hput, List.foldl_cons]

/-- The audio tracks of an output are those of the last list. -/
theorem audioTracks_of_resolve {tokens : List Token} {o : Output} (h : resolve tokens = .ok o) :
    o.audioTracks = Setting.lastList Setting.audioList? tokens := by
  obtain ⟨_, rfl⟩ := applyAll_eq_ok_iff.1 h
  exact field_foldl_put (fun _ token => by cases token <;> rfl) (start tokens) tokens

/-- The subtitle tracks of an output are those of the last list. -/
theorem subtitleTracks_of_resolve {tokens : List Token} {o : Output} (h : resolve tokens = .ok o) :
    o.subtitleTracks = Setting.lastList Setting.subtitleList? tokens := by
  obtain ⟨_, rfl⟩ := applyAll_eq_ok_iff.1 h
  exact field_foldl_put (fun _ token => by cases token <;> rfl) (start tokens) tokens

end Output

end Transcode
