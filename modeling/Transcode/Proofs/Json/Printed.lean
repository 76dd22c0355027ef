/-
**A document is known from its written form.**

The first character of a written document tells what kind of document it is, and each kind ends
where it can be told: a name at its last letter, a number where the digits end, a text at the first
quote that is not escaped, a list and an object at their closing bracket.  So a document in front of
any text that does not go on with digits is known from the whole, by induction on the document, and
with it the text.

Main definitions:

* `Transcode.Json.escaped` — the characters that are not written as they are;
* `Transcode.Json.kind`, `Transcode.Json.Kind.ofChar` — the kind of a document, and of those that
  begin with a character;
* `Transcode.Json.Ends`, `Transcode.Json.Closes` — a text does not continue a number, or a list.

Main results:

* `Transcode.Json.quote_append_inj` — a quoted text is known from the whole;
* `Transcode.Json.printAt_append_inj` — so is a written document;
* `Transcode.Json.print_injective` — **different documents are written differently**.
-/

import Transcode.Json.Printer
import Mathlib.Data.List.Basic

set_option relaxedAutoImplicit false
set_option autoImplicit false

namespace Transcode.Json

/-! ### Texts -/

/-- The characters that are not written as they are between quotes. -/
def escaped : List Char := '"' :: '\\' :: (List.range 32).map Char.ofNat

theorem mem_escaped {c : Char} (h : c = '"' ∨ c = '\\' ∨ c.toNat < 32) : c ∈ escaped := by
  obtain rfl | rfl | h := h
  · simp [escaped]
  · simp [escaped]
  · have hc : c ∈ (List.range 32).map Char.ofNat :=
      List.mem_map.2 ⟨c.toNat, List.mem_range.2 h, Char.ofNat_toNat c⟩
    simp [escaped, hc]

/-- Any other character is written as it is. -/
theorem escape_of_not_mem {c : Char} (h : c ∉ escaped) : escape c = [c] := by
  have hquote : c ≠ '"' := fun hc => h (mem_escaped (Or.inl hc))
  have hslash : c ≠ '\\' := fun hc => h (mem_escaped (Or.inr (Or.inl hc)))
  have hcontrol : ¬ c.toNat < 32 := fun hc => h (mem_escaped (Or.inr (Or.inr hc)))
  have hne : ∀ d : Char, d.toNat < 32 → c ≠ d := fun d hd hc => hcontrol (hc ▸ hd)
  unfold escape
  rw [if_neg hquote, if_neg hslash, if_neg (hne _ (by decide)), if_neg (hne _ (by decide)),
    if_neg (hne _ (by decide)), if_neg (by omega), if_neg (by omega), if_neg hcontrol]

/-- An escaped character begins with a backslash, and any other one with itself. -/
theorem head?_escape_append (c : Char) (r : Text) :
    (escape c ++ r).head? = some (if c ∈ escaped then '\\' else c) := by
  have hall : escaped.all (fun c => (escape c).head? == some '\\') = true := by decide +kernel
  by_cases hc : c ∈ escaped
  · rw [if_pos hc, List.head?_append, beq_iff_eq.1 (List.all_eq_true.1 hall c hc), Option.some_or]
  · rw [if_neg hc, escape_of_not_mem hc]
    rfl

/-- No escaped character is written as the beginning of another one. -/
theorem escape_prefix_inj {c d : Char} (hc : c ∈ escaped) (hd : d ∈ escaped)
    (h : escape c <+: escape d) : c = d := by
  have hall : escaped.all (fun c => escaped.all fun d =>
      (escape c).isPrefixOf (escape d) → c = d) = true := by decide +kernel
  have hpair := List.all_eq_true.1 (List.all_eq_true.1 hall c hc) d hd
  exact of_decide_eq_true hpair (List.isPrefixOf_iff_prefix.2 h)

/-- A character is known from the whole. -/
theorem escape_append_inj {c d : Char} {r s : Text} (h : escape c ++ r = escape d ++ s) :
    c = d ∧ r = s := by
  have hslash : '\\' ∈ escaped := mem_escaped (Or.inr (Or.inl rfl))
  have hhead : (if c ∈ escaped then '\\' else c) = if d ∈ escaped then '\\' else d := by
    rw [← Option.some.injEq, ← head?_escape_append c r, ← head?_escape_append d s, h]
  have hcd : c = d := by
    by_cases hc : c ∈ escaped <;> by_cases hd : d ∈ escaped
    · obtain ⟨_, hfront, _⟩ | ⟨_, hfront, _⟩ := List.append_eq_append_iff.1 h
      · exact escape_prefix_inj hc hd ⟨_, hfront.symm⟩
      · exact (escape_prefix_inj hd hc ⟨_, hfront.symm⟩).symm
    · rw [if_pos hc, if_neg hd] at hhead
      exact absurd (hhead ▸ hslash) hd
    · rw [if_neg hc, if_pos hd] at hhead
      exact absurd (hhead ▸ hslash) hc
    · rwa [if_neg hc, if_neg hd] at hhead
  subst hcd
  exact ⟨rfl, List.append_cancel_left h⟩

/-- No character is written as a quote, so a quote ends a text. -/
theorem escape_append_ne_quote (c : Char) (r s : Text) : escape c ++ r ≠ '"' :: s := by
  intro h
  have hhead := head?_escape_append c r
  rw [h] at hhead
  by_cases hc : c ∈ escaped
  · rw [if_pos hc] at hhead
    exact absurd (Option.some.inj hhead) (by decide)
  · rw [if_neg hc] at hhead
    exact hc (mem_escaped (Or.inl (Option.some.inj hhead).symm))

/-- A quoted text is known from the whole. -/
theorem quote_append_inj {s t r u : Text} (h : quote s ++ r = quote t ++ u) : s = t ∧ r = u := by
  unfold quote at h
  simp only [List.cons_append, List.append_assoc, List.nil_append, List.cons.injEq,
    true_and] at h
  induction s generalizing t with
  | nil =>
      cases t with
      | nil => exact ⟨rfl, (List.cons.inj h).2⟩
      | cons d t =>
          rw [List.flatMap_cons, List.append_assoc] at h
          exact absurd h.symm (escape_append_ne_quote d _ r)
  | cons c s ih =>
      rw [List.flatMap_cons, List.append_assoc] at h
      cases t with
      | nil => exact absurd h (escape_append_ne_quote c _ u)
      | cons d t =>
          rw [List.flatMap_cons, List.append_assoc] at h
          obtain ⟨rfl, hrest⟩ := escape_append_inj h
          obtain ⟨rfl, hru⟩ := ih hrest
          exact ⟨rfl, hru⟩

/-! ### Kinds of documents -/

/-- The kinds of documents. -/
inductive Kind where
  | null
  | bool
  | number
  | text
  | list
  | object
  deriving DecidableEq, Repr

/-- The kind of a document. -/
def kind : Json → Kind
  | null => .null
  | bool _ => .bool
  | number _ => .number
  | text _ => .text
  | list _ => .list
  | object _ => .object

/-- The kind of the documents that are written with a first character. -/
def Kind.ofChar (c : Char) : Kind :=
  if c = 'n' then .null
  else if c = 't' ∨ c = 'f' then .bool
  else if c = '"' then .text
  else if c = '[' then .list
  else if c = '\x7b' then .object
  else .number

/-- A character of a numeral is none that begins anything else. -/
theorem Kind.ofChar_eq_number {c : Char} {n : Int} (h : c ∈ Text.ofInt n) : ofChar c = number := by
  have hne : ∀ d : Char, d.isDigit = false → d ≠ '-' → c ≠ d := fun d hdigit hminus hc =>
    Text.not_mem_ofInt hdigit hminus n (hc ▸ h)
  unfold ofChar
  rw [if_neg (hne _ (by decide) (by decide)),
    if_neg (not_or.2 ⟨hne _ (by decide) (by decide), hne _ (by decide) (by decide)⟩),
    if_neg (hne _ (by decide) (by decide)), if_neg (hne _ (by decide) (by decide)),
    if_neg (hne _ (by decide) (by decide))]

variable {layout : Layout} {depth : Nat}

/-- The first character of a written document tells its kind, and is no closing bracket. -/
theorem exists_printAt_eq_cons (layout : Layout) (depth : Nat) (document : Json) :
    ∃ c rest, printAt layout depth document = c :: rest ∧ Kind.ofChar c = document.kind ∧
      c ≠ ']' := by
  cases document with
  | null => exact ⟨'n', _, rfl, rfl, by decide⟩
  | bool value =>
      cases value with
      | true => exact ⟨'t', _, rfl, rfl, by decide⟩
      | false => exact ⟨'f', _, rfl, rfl, by decide⟩
  | number n =>
      obtain ⟨c, rest, hprint⟩ := List.exists_cons_of_ne_nil (Text.ofInt_ne_nil n)
      have hc : c ∈ Text.ofInt n := by simp [hprint]
      refine ⟨c, rest, hprint, Kind.ofChar_eq_number hc, ?_⟩
      rintro rfl
      exact Text.not_mem_ofInt (by decide) (by decide) n hc
  | text s => exact ⟨'"', _, rfl, rfl, by decide⟩
  | list items => cases items <;> exact ⟨'[', _, rfl, rfl, by decide⟩
  | object fields => cases fields <;> exact ⟨'\x7b', _, rfl, rfl, by decide⟩

/-- Documents that begin the same text are of one kind. -/
theorem kind_eq_of_append {d e : Json} {r s : Text}
    (h : printAt layout depth d ++ r = printAt layout depth e ++ s) : d.kind = e.kind := by
  obtain ⟨c, _, hd, hc, _⟩ := exists_printAt_eq_cons layout depth d
  obtain ⟨c', _, he, hc', _⟩ := exists_printAt_eq_cons layout depth e
  rw [hd, he] at h
  rw [← hc, ← hc', (List.cons.inj h).1]

/-! ### Numbers -/

/-- A text does not continue a number. -/
def Ends (s : Text) : Prop := Text.Stops (fun c => c.isDigit || c == '-') s

/-- A number is known from the whole. -/
theorem ofInt_append_inj {m n : Int} {r s : Text} (hr : Ends r) (hs : Ends s)
    (h : Text.ofInt m ++ r = Text.ofInt n ++ s) : m = n ∧ r = s := by
  have hnumeral : ∀ (n : Int), ∀ c ∈ Text.ofInt n, (c.isDigit || c == '-') = true := by
    intro n c hc
    by_contra hnot
    rw [Bool.or_eq_true, not_or] at hnot
    exact Text.not_mem_ofInt (by simpa using hnot.1) (by simpa using hnot.2) n hc
  obtain ⟨hnumber, hrest⟩ := Text.append_inj_of_stops (hnumeral m) (hnumeral n) hr hs h
  exact ⟨Text.ofInt_injective hnumber, hrest⟩

/-! ### Lists and objects -/

/-- A text continues neither a number nor a list. -/
structure Closes (s : Text) : Prop where
  ends : Ends s
  stops : Text.Stops (· == ',') s

/-- A line with a closing bracket does so. -/
theorem closes_lineStart {c : Char} (hc : c = ']' ∨ c = '\x7d') (layout : Layout) (depth : Nat)
    (rest : Text) : Closes (layout.lineStart depth ++ c :: rest) := by
  cases layout with
  | compact => obtain rfl | rfl := hc <;> exact ⟨Text.stops_cons.2 rfl, Text.stops_cons.2 rfl⟩
  | indented => exact ⟨Text.stops_cons.2 rfl, Text.stops_cons.2 rfl⟩

theorem Closes.ne_comma {r : Text} (h : Closes r) (s : Text) : r ≠ ',' :: s := by
  rintro rfl
  exact absurd (Text.stops_cons.1 h.stops) (by decide)

/-- What stands behind an item does not continue a number. -/
theorem Closes.ends_printItems {rest : Text} (h : Closes rest) (items : List Json) :
    Ends (printItems layout depth items ++ rest) := by
  cases items with
  | nil => exact h.ends
  | cons item items => exact Text.stops_cons.2 rfl

/-- What stands behind a field does not continue a number. -/
theorem Closes.ends_printFields {rest : Text} (h : Closes rest) (fields : List (Text × Json)) :
    Ends (printFields layout depth fields ++ rest) := by
  cases fields with
  | nil => exact h.ends
  | cons field fields => exact Text.stops_cons.2 rfl

/-- A list with an item is not written like one without. -/
theorem printAt_list_ne_nil (item : Json) (items : List Json) (r s : Text) :
    printAt layout depth (list (item :: items)) ++ r ≠ printAt layout depth (list []) ++ s := by
  obtain ⟨c, rest, hprint, _, hc⟩ := exists_printAt_eq_cons layout (depth + 1) item
  intro h
  cases layout with
  | compact =>
      simp [printAt, Layout.lineStart, hprint] at h
      exact hc h.1
  | indented => simp [printAt, Layout.lineStart] at h

/-- An object with a field is not written like one without. -/
theorem printAt_object_ne_nil (field : Text × Json) (fields : List (Text × Json)) (r s : Text) :
    printAt layout depth (object (field :: fields)) ++ r ≠
      printAt layout depth (object []) ++ s := by
  intro h
  cases layout <;> simp [printAt, Layout.lineStart, quote] at h

/-- A list with an item, part by part. -/
theorem printAt_list_append (item : Json) (items : List Json) (r : Text) :
    printAt layout depth (list (item :: items)) ++ r =
      '[' :: (layout.lineStart (depth + 1) ++ (printAt layout (depth + 1) item ++
        (printItems layout (depth + 1) items ++ (layout.lineStart depth ++ ']' :: r)))) := by
  simp [printAt]

/-- An object with a field, part by part. -/
theorem printAt_object_append (name : Text) (value : Json) (fields : List (Text × Json))
    (r : Text) :
    printAt layout depth (object ((name, value) :: fields)) ++ r =
      '\x7b' :: (layout.lineStart (depth + 1) ++ (quote name ++ (layout.colon ++
        (printAt layout (depth + 1) value ++
          (printFields layout (depth + 1) fields ++
            (layout.lineStart depth ++ '\x7d' :: r)))))) := by
  simp [printAt]

theorem printItems_cons_append (item : Json) (items : List Json) (r : Text) :
    printItems layout depth (item :: items) ++ r =
      ',' :: (layout.lineStart depth ++ (printAt layout depth item ++
        (printItems layout depth items ++ r))) := by
  simp [printItems]

theorem printFields_cons_append (name : Text) (value : Json) (fields : List (Text × Json))
    (r : Text) :
    printFields layout depth ((name, value) :: fields) ++ r =
      ',' :: (layout.lineStart depth ++ (quote name ++ (layout.colon ++
        (printAt layout depth value ++ (printFields layout depth fields ++ r))))) := by
  simp [printFields]

mutual

/-- A written document in front of a text that does not continue a number is known from the
whole. -/
theorem printAt_append_inj (depth : Nat) : ∀ (d e : Json) {r s : Text}, Ends r → Ends s →
    printAt layout depth d ++ r = printAt layout depth e ++ s → d = e ∧ r = s
  | .null, e, r, s, _, _, h => by
    have hkind := kind_eq_of_append h
    cases e with
    | null => exact ⟨rfl, List.append_cancel_left h⟩
    | _ => exact absurd hkind (by simp [kind])
  | .bool a, e, r, s, _, _, h => by
    have hkind := kind_eq_of_append h
    cases e with
    | bool b =>
        cases a <;> cases b
        · exact ⟨rfl, List.append_cancel_left h⟩
        · exact absurd h (by simp [printAt])
        · exact absurd h (by simp [printAt])
        · exact ⟨rfl, List.append_cancel_left h⟩
    | _ => exact absurd hkind (by simp [kind])
  | .number m, e, r, s, hr, hs, h => by
    have hkind := kind_eq_of_append h
    cases e with
    | number n =>
        obtain ⟨rfl, hrest⟩ := ofInt_append_inj hr hs h
        exact ⟨rfl, hrest⟩
    | _ => exact absurd hkind (by simp [kind])
  | .text a, e, r, s, _, _, h => by
    have hkind := kind_eq_of_append h
    cases e with
    | text b =>
        obtain ⟨rfl, hrest⟩ := quote_append_inj h
        exact ⟨rfl, hrest⟩
    | _ => exact absurd hkind (by simp [kind])
  | .list [], e, r, s, _, _, h => by
    have hkind := kind_eq_of_append h
    cases e with
    | list items =>
        cases items with
        | nil => exact ⟨rfl, List.append_cancel_left h⟩
        | cons item items => exact absurd h.symm (printAt_list_ne_nil item items s r)
    | _ => exact absurd hkind (by simp [kind])
  | .list (a :: as), e, r, s, _, _, h => by
    have hkind := kind_eq_of_append h
    cases e with
    | list items =>
        cases items with
        | nil => exact absurd h (printAt_list_ne_nil a as r s)
        | cons b bs =>
            rw [printAt_list_append, printAt_list_append] at h
            have hcloses := closes_lineStart (Or.inl rfl) layout depth
            obtain ⟨rfl, hrest⟩ := printAt_append_inj (depth + 1) a b
              ((hcloses r).ends_printItems as) ((hcloses s).ends_printItems bs)
              (List.append_cancel_left (List.cons.inj h).2)
            obtain ⟨rfl, hclose⟩ :=
              printItems_append_inj (depth + 1) as bs (hcloses r) (hcloses s) hrest
            exact ⟨rfl, (List.cons.inj (List.append_cancel_left hclose)).2⟩
    | _ => exact absurd hkind (by simp [kind])
  | .object [], e, r, s, _, _, h => by
    have hkind := kind_eq_of_append h
    cases e with
    | object fields =>
        cases fields with
        | nil => exact ⟨rfl, List.append_cancel_left h⟩
        | cons field fields => exact absurd h.symm (printAt_object_ne_nil field fields s r)
    | _ => exact absurd hkind (by simp [kind])
  | .object ((name, a) :: as), e, r, s, _, _, h => by
    have hkind := kind_eq_of_append h
    cases e with
    | object fields =>
        cases fields with
        | nil => exact absurd h (printAt_object_ne_nil (name, a) as r s)
        | cons field bs =>
            obtain ⟨name', b⟩ := field
            rw [printAt_object_append, printAt_object_append] at h
            obtain ⟨rfl, hvalue⟩ := quote_append_inj (List.append_cancel_left (List.cons.inj h).2)
            have hcloses := closes_lineStart (Or.inr rfl) layout depth
            obtain ⟨rfl, hrest⟩ := printAt_append_inj (depth + 1) a b
              ((hcloses r).ends_printFields as) ((hcloses s).ends_printFields bs)
              (List.append_cancel_left hvalue)
            obtain ⟨rfl, hclose⟩ :=
              printFields_append_inj (depth + 1) as bs (hcloses r) (hcloses s) hrest
            exact ⟨rfl, (List.cons.inj (List.append_cancel_left hclose)).2⟩
    | _ => exact absurd hkind (by simp [kind])

/-- So are written items in front of a text that continues neither a number nor a list. -/
theorem printItems_append_inj (depth : Nat) : ∀ (ds es : List Json) {r s : Text},
    Closes r → Closes s →
      printItems layout depth ds ++ r = printItems layout depth es ++ s → ds = es ∧ r = s
  | [], [], _, _, _, _, h => ⟨rfl, h⟩
  | [], e :: es, r, s, hr, _, h => by
    rw [printItems_cons_append] at h
    exact absurd h (hr.ne_comma _)
  | d :: ds, [], r, s, _, hs, h => by
    rw [printItems_cons_append] at h
    exact absurd h.symm (hs.ne_comma _)
  | d :: ds, e :: es, r, s, hr, hs, h => by
    rw [printItems_cons_append, printItems_cons_append] at h
    obtain ⟨rfl, hrest⟩ := printAt_append_inj depth d e (hr.ends_printItems ds)
      (hs.ends_printItems es) (List.append_cancel_left (List.cons.inj h).2)
    obtain ⟨rfl, hrs⟩ := printItems_append_inj depth ds es hr hs hrest
    exact ⟨rfl, hrs⟩

/-- So are written fields. -/
theorem printFields_append_inj (depth : Nat) : ∀ (ds es : List (Text × Json)) {r s : Text},
    Closes r → Closes s →
      printFields layout depth ds ++ r = printFields layout depth es ++ s → ds = es ∧ r = s
  | [], [], _, _, _, _, h => ⟨rfl, h⟩
  | [], (name, e) :: es, r, s, hr, _, h => by
    rw [printFields_cons_append] at h
    exact absurd h (hr.ne_comma _)
  | (name, d) :: ds, [], r, s, _, hs, h => by
    rw [printFields_cons_append] at h
    exact absurd h.symm (hs.ne_comma _)
  | (name, d) :: ds, (name', e) :: es, r, s, hr, hs, h => by
    rw [printFields_cons_append, printFields_cons_append] at h
    obtain ⟨rfl, hvalue⟩ := quote_append_inj (List.append_cancel_left (List.cons.inj h).2)
    obtain ⟨rfl, hrest⟩ := printAt_append_inj depth d e (hr.ends_printFields ds)
      (hs.ends_printFields es) (List.append_cancel_left hvalue)
    obtain ⟨rfl, hrs⟩ := printFields_append_inj depth ds es hr hs hrest
    exact ⟨rfl, hrs⟩

end

/-- **Different documents are written differently.** -/
theorem print_injective (layout : Layout) : Function.Injective (print layout) := by
  intro d e h
  have hends : Ends [] := Text.stops_nil _
  exact (printAt_append_inj 0 d e hends hends (by simpa [print] using h)).1

-- A number in front of a further digit is not known from the whole.
example : print .compact (number 1) ++ ['2'] = print .compact (number 12) ++ [] := by decide

end Transcode.Json
