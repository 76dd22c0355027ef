/-
**Reading one clause.**

A clause is the key of a filter and a value.  Reading it needs no file system: the tracks of a
clause stay references.  A track list that is spoilt at some reference still refers to the tracks
before it, and those are looked up before the clause is refused; so a fault carries them along.

Main definitions:

* `Transcode.Fault` — why a clause cannot be read, and what is looked up before that shows;
* `Transcode.Clause.scan` — the clause at the start of a text, and what follows it;
* `Transcode.Clause.parse` — the same with its tracks looked up beside a source.

Main results:

* `Transcode.Clause.length_scan_lt` — what follows a clause is shorter than the text.
-/

import Transcode.Clause.Value
import Transcode.Setting

set_option relaxedAutoImplicit false
set_option autoImplicit false

namespace Transcode

/-- Why a clause cannot be read. -/
structure Fault where
  /-- The track references that are looked up before the fault shows. -/
  pending : List TrackRef
  /-- What is wrong with the clause. -/
  error : ParseError
  deriving DecidableEq, Repr, Inhabited

/-- Looks up what is pending, and then refuses the specification. -/
def Fault.raise {α : Type} (source : Text) (fault : Fault) : Attempt α := do
  let _ ← fault.pending.mapM (TrackRef.find source)
  throw fault.error

namespace Clause

/-! ### Values -/

/-- A clause whose value has no tracks: the value makes the clause, and an error is a fault with
nothing pending. -/
def ofReading {α : Type} (make : α → Clause) (reading : Value.Reading α) :
    Except Fault (Clause × Text) :=
  match reading with
  | .ok (a, rest) => .ok (make a, rest)
  | .error e => .error ⟨[], e⟩

/-- A clause with a track list; a spoilt list leaves the whole clause unrecognized. -/
def ofTracks (make : List TrackRef → Clause) (clause : Text) (list : List TrackRef × Option Text) :
    Except Fault (Clause × Text) :=
  match list.2 with
  | some rest => .ok (make list.1, rest)
  | none => .error ⟨list.1, .unrecognizedFilter clause⟩

/-- The value of a filter at the start of a text, as a clause.  `clause` is the text from the key
on. -/
def scanValue (clause value : Text) : Filter → Except Fault (Clause × Text)
  | .videoEncoder => ofReading .videoEncoder <|
    Value.name Char.isAlphanum VideoEncoder.ofName?
      (.unknownVideoEncoder · (VideoEncoder.all.map VideoEncoder.name)) value
  | .quantizer => ofReading .quantizer <|
    Value.number .quantizer Text.leadingInteger Range.signed16 value
  | .speed => ofReading .speed <| Value.number .speed Text.leadingNatural Range.unsigned8 value
  | .profile => ofReading .profile <|
    Value.name Char.isAlpha Profile.ofName? (.unknownProfile · (Profile.all.map Profile.name)) value
  | .grain => ofReading .grain <| Value.number .grain Text.leadingNatural Range.unsigned8 value
  | .compat => ofReading (fun n => .compat (0 < n)) <|
    Value.number .compat Text.leadingNatural Range.unsigned8 value
  | .container => ofReading .container <|
    Value.name Char.isAlphanum Container.ofName?
      (.unsupportedExtension · (Container.all.map Container.name)) value
  | .bitDepth => ofReading .bitDepth <|
    Value.name Char.isDigit BitDepth.ofName?
      (.unsupportedBitDepth · (BitDepth.all.map fun d => (d.bits : Int))) value
  | .resolution => ofReading .resolution <| Value.resolution value
  | .audioEncoder => ofReading .audioEncoder <|
    Value.name Char.isAlphanum AudioEncoder.ofName?
      (.unknownAudioEncoder · (AudioEncoder.all.map AudioEncoder.name)) value
  | .audioBitrate => ofReading .audioBitrate <|
    Value.number .audioBitrate Text.leadingNatural Range.unsigned32 value
  | .audioTracks => ofTracks .audioTracks clause (TrackRef.scanList value)
  | .audioNormalize => .ok (.audioNormalize, value)
  | .subtitleTracks => ofTracks .subtitleTracks clause (TrackRef.scanList value)

/-! ### Clauses -/

/-- The clause at the start of a text, and what follows it, separators included. -/
def scan (s : Text) : Except Fault (Clause × Text) :=
  match Filter.keyed? s with
  | none => .error ⟨[], .unrecognizedFilter s⟩
  | some (filter, value) => scanValue s value filter

/-- The clause at the start of a text with its tracks looked up beside a source, and what follows
the clause. -/
def parse (source s : Text) : Attempt (Token × Text) :=
  match scan s with
  | .error fault => fault.raise source
  | .ok (clause, rest) => do return (← clause.find source, rest)

/-! ### What follows a clause is shorter -/

theorem ofReading_eq_ok {α : Type} {make : α → Clause} {reading : Value.Reading α}
    {clause : Clause} {rest : Text} (h : ofReading make reading = .ok (clause, rest)) :
    ∃ a, reading = .ok (a, rest) ∧ clause = make a := by
  unfold ofReading at h
  split at h
  · rename_i a after
    obtain ⟨rfl, rfl⟩ := Prod.mk.inj (Except.ok.inj h)
    exact ⟨a, rfl, rfl⟩
  · simp at h

theorem ofTracks_eq_ok {make : List TrackRef → Clause} {text : Text}
    {list : List TrackRef × Option Text} {clause : Clause} {rest : Text}
    (h : ofTracks make text list = .ok (clause, rest)) :
    list.2 = some rest ∧ clause = make list.1 := by
  unfold ofTracks at h
  split at h
  · rename_i after hl
    obtain ⟨rfl, rfl⟩ := Prod.mk.inj (Except.ok.inj h)
    exact ⟨hl, rfl⟩
  · simp at h

theorem length_scanValue_le {text value rest : Text} {filter : Filter} {clause : Clause}
    (h : scanValue text value filter = .ok (clause, rest)) : rest.length ≤ value.length := by
  cases filter with
  | videoEncoder | profile | container | bitDepth | audioEncoder =>
      obtain ⟨a, ha, _⟩ := ofReading_eq_ok h
      exact Value.length_name_le ha
  | quantizer | speed | grain | compat | audioBitrate =>
      obtain ⟨a, ha, _⟩ := ofReading_eq_ok h
      exact Value.length_number_le ha
  | resolution =>
      obtain ⟨a, ha, _⟩ := ofReading_eq_ok h
      exact Value.length_resolution_le ha
  | audioTracks | subtitleTracks =>
      exact Nat.le_of_lt (TrackRef.length_scanList_lt (ofTracks_eq_ok h).1)
  | audioNormalize =>
      have hr : value = rest := (Prod.mk.inj (Except.ok.inj h)).2
      exact Nat.le_of_eq (congrArg List.length hr.symm)

/-- A clause is not empty, so what follows it is shorter than the text. -/
theorem length_scan_lt {s rest : Text} {clause : Clause} (h : scan s = .ok (clause, rest)) :
    rest.length < s.length := by
  unfold scan at h
  split at h
  · simp at h
  · rename_i filter value hk
    obtain ⟨key, hkey, rfl⟩ := Filter.keyed?_eq_some_iff.1 hk
    have hle := length_scanValue_le h
    have hne : 0 < key.length := by
      revert hkey
      cases filter <;> simp only [Filter.keys, List.mem_cons, List.not_mem_nil, or_false] <;>
        (intro hk; rcases hk with rfl | rfl | rfl <;> decide)
    simp only [List.length_append]
    omega

end Clause

end Transcode
