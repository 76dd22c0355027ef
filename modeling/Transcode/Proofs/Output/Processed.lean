/-
**Every encoded file is recognised as processed.**

The name of an encoded file is a plain name, so it is the last component of the path wherever the
file lies, whatever the stem of the source and the directory look like.  Its last dot is the one
before the container, because neither containers nor the encoder parts of names hold a dot; so the
stem of the path ends with the encoder part.  That is what encoded files are recognised by.

Main results:

* `Transcode.Output.basename_path`, `Transcode.Output.stem_path` — the last component and the stem
  of the path of an encoded file;
* `Transcode.Path.isProcessed_iff` — which paths look like those of encoded files;
* `Transcode.Output.isProcessed_path` — **every encoded file is recognised as processed**.
-/

import Transcode.Output.Name
import Transcode.Proofs.Path.Join

set_option relaxedAutoImplicit false
set_option autoImplicit false

namespace Transcode

/-! ### What names of encoded files are made of -/

/-- The characters of containers and of the encoder parts of names: letters, digits and the
dash. -/
def Output.isNameChar (c : Char) : Bool := c.isAlphanum || c == '-'

/-- Neither slashes nor dots are among them. -/
theorem Output.ne_of_isNameChar {c : Char} (h : isNameChar c = true) : c ≠ '/' ∧ c ≠ '.' := by
  constructor
  · rintro rfl
    exact absurd h (by decide)
  · rintro rfl
    exact absurd h (by decide)

theorem Text.isNameChar_of_mem_ofInt {n : Int} {c : Char} (h : c ∈ Text.ofInt n) :
    Output.isNameChar c = true := by
  have hdigit : ∀ {m : Nat}, c ∈ Text.ofNat m → Output.isNameChar c = true := by
    intro m hm
    simp [Output.isNameChar, Char.isAlphanum, Text.isDigit_of_mem_ofNat hm]
  cases n with
  | ofNat m => exact hdigit h
  | negSucc m =>
      rcases List.mem_cons.1 h with rfl | h
      · rfl
      · exact hdigit h

theorem VideoEncoder.isNameChar_of_mem_marker (e : VideoEncoder) :
    ∀ c ∈ e.marker, Output.isNameChar c = true := by
  have hall : e.marker.all Output.isNameChar = true := by cases e <;> decide
  exact List.all_eq_true.1 hall

/-- The encoder part of a name is made of letters, digits and dashes. -/
theorem Video.isNameChar_of_mem_suffix (v : Video) :
    ∀ c ∈ v.suffix, Output.isNameChar c = true := by
  intro c hc
  have hquantized : ∀ {e : VideoEncoder} {crf : Int}, c ∈ e.marker ++ Text.ofInt crf →
      Output.isNameChar c = true := by
    intro e crf h
    rcases List.mem_append.1 h with h | h
    · exact e.isNameChar_of_mem_marker c h
    · exact Text.isNameChar_of_mem_ofInt h
  cases v with
  | copy =>
      have hall : VideoEncoder.copy.name.all Output.isNameChar = true := by decide
      exact List.all_eq_true.1 hall c hc
  | aom | rav1e | svt | x264 | x265 => exact hquantized hc

theorem Container.isNameChar_of_mem_name (c : Container) :
    ∀ d ∈ c.name, Output.isNameChar d = true := by
  have hall : c.name.all Output.isNameChar = true := by cases c <;> decide
  exact List.all_eq_true.1 hall

theorem Container.name_ne_nil (c : Container) : c.name ≠ [] := by cases c <;> decide

namespace Output

/-! ### The path of an encoded file -/

variable (source : Text) (o : Output) (dir : Option Text)

/-- The name of an encoded file is plain, whatever the stem of its source is. -/
theorem isPlain_fileName : Path.IsPlain (o.fileName source) := by
  have hslash : '/' ∉ o.fileName source := by
    intro h
    simp only [fileName, List.mem_append, List.mem_cons] at h
    rcases h with (h | h | h) | h | h
    · exact Path.slash_not_mem_stem source h
    · exact absurd h (by decide)
    · exact (ne_of_isNameChar (o.video.isNameChar_of_mem_suffix _ h)).1 rfl
    · exact absurd h (by decide)
    · exact (ne_of_isNameChar (o.container.isNameChar_of_mem_name _ h)).1 rfl
  obtain ⟨c, rest, hname⟩ := List.exists_cons_of_ne_nil o.container.name_ne_nil
  have hc : c ∈ o.container.name := by simp [hname]
  have hmem : c ∈ o.fileName source := by simp [fileName, hc]
  have hdot := (ne_of_isNameChar (o.container.isNameChar_of_mem_name c hc)).2
  exact Path.isPlain_of_mem hslash hmem hdot

/-- The last component of the path of an encoded file is its name. -/
theorem basename_path : Path.basename (o.path source dir) = o.fileName source :=
  Path.basename_join (isPlain_fileName source o) _

/-- The name of an encoded file is cut before the container. -/
theorem splitName_fileName :
    Path.splitName (o.fileName source) =
      (Path.stem source ++ '.' :: o.video.suffix, '.' :: o.container.name) := by
  refine Path.splitName_dot (by simp) o.container.name_ne_nil ?_
  intro hdot
  exact (ne_of_isNameChar (o.container.isNameChar_of_mem_name '.' hdot)).2 rfl

/-- The stem of the path of an encoded file ends with the encoder part of its name. -/
theorem stem_path :
    Path.stem (o.path source dir) = Path.stem source ++ '.' :: o.video.suffix := by
  rw [Path.stem, basename_path, splitName_fileName]

end Output

/-! ### Recognising encoded files -/

/-- A path looks like that of an encoded file exactly if its stem holds the encoder part of a name,
after a dot and up to the quantizer, or ends with the one for copied video. -/
theorem Path.isProcessed_iff {p : Text} :
    isProcessed p = true ↔
      (∃ e : VideoEncoder, e ≠ .copy ∧
          ∃ before after, stem p = before ++ '.' :: e.marker ++ after) ∨
        ∃ before, stem p = before ++ '.' :: VideoEncoder.copy.name := by
  have hmarker : ∀ word, word ∈ markers ↔
      ∃ e : VideoEncoder, e ≠ .copy ∧ '.' :: e.marker = word := by
    intro word
    simp [markers, VideoEncoder.mem_all]
  simp only [isProcessed, Bool.or_eq_true, List.any_eq_true, hmarker, Text.occursIn_iff,
    List.isSuffixOf_iff_suffix]
  constructor
  · rintro (⟨_, ⟨e, he, rfl⟩, h⟩ | ⟨before, h⟩)
    · exact Or.inl ⟨e, he, h⟩
    · exact Or.inr ⟨before, h.symm⟩
  · rintro (⟨e, he, h⟩ | ⟨before, h⟩)
    · exact Or.inl ⟨_, ⟨e, he, rfl⟩, h⟩
    · exact Or.inr ⟨before, h.symm⟩

/-- **Every encoded file is recognised as processed**, whatever its source is called, however it is
encoded, and wherever it lies. -/
theorem Output.isProcessed_path (source : Text) (o : Output) (dir : Option Text) :
    Path.isProcessed (o.path source dir) = true := by
  rw [Path.isProcessed_iff, stem_path]
  -- the encoder part has a quantizer unless the video is copied
  cases hcrf : o.video.crf? with
  | some crf =>
      have hcopy : o.video.encoder ≠ .copy := by
        intro hcopy
        cases hvideo : o.video <;> simp_all [Video.encoder, Video.crf?]
      refine Or.inl ⟨o.video.encoder, hcopy, Path.stem source, Text.ofInt crf, ?_⟩
      simp [Video.suffix, hcrf]
  | none =>
      have hcopy : o.video.encoder = .copy := by
        cases hvideo : o.video <;> simp_all [Video.encoder, Video.crf?]
      refine Or.inr ⟨Path.stem source, ?_⟩
      simp [Video.suffix, hcrf, hcopy]

/-- A source whose last component goes up is named after the dots. -/
example : (Output.ofEncoder .x264).path "a/../".toList (some []) = "...x264-q18.mkv".toList := by
  decide

end Transcode
