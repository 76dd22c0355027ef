/-
**The filters of the specification language.**

A clause of a specification starts with the key of a filter; some filters have several keys.  The
filters are tried in a fixed order, and no key of one filter hides a key of another.

Main definitions:

* `Transcode.Filter` — the filters, with `Filter.name` and `Filter.keys`;
* `Transcode.Filter.all` — the filters in the order in which they are tried;
* `Transcode.Filter.keyed?` — the filter whose key a text starts with, and the value after the key.

Main results:

* `Transcode.Filter.keyed?_eq_some_iff` — a text belongs to a filter exactly when it is one of the
  filter's keys and a value.
-/

import Transcode.Text.Run

set_option relaxedAutoImplicit false
set_option autoImplicit false

namespace Transcode

/-- A filter: what a clause of a specification is about. -/
inductive Filter where
  | videoEncoder
  | quantizer
  | speed
  | profile
  | grain
  | compat
  | container
  | bitDepth
  | resolution
  | audioEncoder
  | audioBitrate
  | audioTracks
  | audioNormalize
  | subtitleTracks
  deriving DecidableEq, Repr, Inhabited

namespace Filter

/-- The filters, in the order in which they are tried. -/
def all : List Filter :=
  [videoEncoder, quantizer, speed, profile, grain, compat, container, bitDepth, resolution,
    audioEncoder, audioBitrate, audioTracks, audioNormalize, subtitleTracks]

/-- The name of a filter in errors and listings. -/
def name : Filter → Text
  | videoEncoder => "enc".toList
  | quantizer => "q".toList
  | speed => "s".toList
  | profile => "p".toList
  | grain => "grain".toList
  | compat => "compat".toList
  | container => "ext".toList
  | bitDepth => "bd".toList
  | resolution => "res".toList
  | audioEncoder => "aenc".toList
  | audioBitrate => "ab".toList
  | audioTracks => "at".toList
  | audioNormalize => "an".toList
  | subtitleTracks => "st".toList

/-- The keys of a filter.  The key that asks for normalized audio is the whole clause. -/
def keys : Filter → List Text
  | videoEncoder => ["enc=".toList]
  | quantizer => ["q=".toList, "qp=".toList, "crf=".toList]
  | speed => ["s=".toList, "speed=".toList]
  | profile => ["p=".toList, "profile=".toList]
  | grain => ["g=".toList, "grain=".toList]
  | compat => ["compat=".toList]
  | container => ["ext=".toList]
  | bitDepth => ["bd=".toList]
  | resolution => ["res=".toList]
  | audioEncoder => ["aenc=".toList]
  | audioBitrate => ["ab=".toList]
  | audioTracks => ["at=".toList]
  | audioNormalize => ["an=1".toList]
  | subtitleTracks => ["st=".toList]

/-- What the filter sets, in a listing of the filters. -/
def description : Filter → Text
  | videoEncoder => "Video encoder".toList
  | quantizer => "Quantizer / CRF (range depends on the encoder)".toList
  | speed => "Encoder speed, 0-10 (AV1 encoders)".toList
  | profile => "Tuning profile".toList
  | grain => "Film grain synthesis strength, 0-64 (AV1 encoders)".toList
  | compat => "Device compatibility mode, 0 or 1 (x264, x265, aom)".toList
  | container => "Output container: mkv or mp4".toList
  | bitDepth => "Output bit depth: 8 or 10".toList
  | resolution => "Output resolution WxH, even and at least 64".toList
  | audioEncoder => "Audio encoder".toList
  | audioBitrate => "Audio bitrate in kbps per channel".toList
  | audioTracks => "Audio tracks: id[-def]|id[-def]...".toList
  | audioNormalize => "Normalize audio (an=1)".toList
  | subtitleTracks => "Subtitle tracks: id[-def]|id[-def]...".toList

/-! ### Finding the filter of a clause -/

/-- Every key with its filter, in the order in which they are tried. -/
def table : List (Filter × Text) := all.flatMap fun f => f.keys.map fun key => (f, key)

/-- The filter whose key a text starts with, and the value that follows the key. -/
def keyed? (s : Text) : Option (Filter × Text) :=
  table.findSome? fun entry => (entry.2.isPrefixOf? s).map fun value => (entry.1, value)

theorem mem_table {f : Filter} {key : Text} : (f, key) ∈ table ↔ key ∈ f.keys := by
  constructor
  · intro h
    obtain ⟨g, _, hg⟩ := List.mem_flatMap.1 h
    obtain ⟨k, hk, he⟩ := List.mem_map.1 hg
    obtain ⟨rfl, rfl⟩ := Prod.mk.inj he
    exact hk
  · intro h
    exact List.mem_flatMap.2 ⟨f, by cases f <;> decide, List.mem_map.2 ⟨key, h, rfl⟩⟩

/-- Of two different keys neither starts with the other, so a text starts with at most one. -/
theorem table_prefixFree :
    table.Pairwise fun a b => ¬ a.2 <+: b.2 ∧ ¬ b.2 <+: a.2 := by decide

/-- A text belongs to a filter exactly when it is one of the filter's keys and a value. -/
theorem keyed?_eq_some_iff {s value : Text} {f : Filter} :
    keyed? s = some (f, value) ↔ ∃ key ∈ f.keys, s = key ++ value := by
  constructor
  · intro h
    obtain ⟨entry, hmem, he⟩ := List.exists_of_findSome?_eq_some h
    obtain ⟨v, hv, hpair⟩ := Option.map_eq_some_iff.1 he
    obtain ⟨rfl, rfl⟩ := Prod.mk.inj hpair
    exact ⟨entry.2, mem_table.1 hmem, Text.isPrefixOf?_eq_some_iff.1 hv⟩
  · rintro ⟨key, hkey, rfl⟩
    have hmem : (f, key) ∈ table := mem_table.2 hkey
    have hfree := table_prefixFree
    unfold keyed?
    generalize table = entries at hmem hfree
    induction entries with
    | nil => simp at hmem
    | cons entry entries ih =>
        rw [List.findSome?_cons]
        rcases List.mem_cons.1 hmem with rfl | hmem'
        · have : key.isPrefixOf? (key ++ value) = some value := Text.isPrefixOf?_eq_some_iff.2 rfl
          simp [this]
        · have hne := (List.pairwise_cons.1 hfree).1 _ hmem'
          have hnone : entry.2.isPrefixOf? (key ++ value) = none := by
            cases hp : entry.2.isPrefixOf? (key ++ value) with
            | none => rfl
            | some v =>
                have heq := Text.isPrefixOf?_eq_some_iff.1 hp
                have hentry : entry.2 <+: key ++ value := ⟨v, heq.symm⟩
                rcases List.prefix_or_prefix_of_prefix hentry (List.prefix_append key value)
                  with h | h
                · exact absurd h hne.1
                · exact absurd h hne.2
          simp [hnone, ih hmem' (List.pairwise_cons.1 hfree).2]

end Filter

end Transcode
