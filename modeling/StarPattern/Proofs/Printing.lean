/-
**Printed forms.**

What is printed for atoms, patterns, languages and engines tells where it ends and what it stands
for.  Between fixed words there are only quoted texts and marks, and both of these end by
themselves; and after an atom of a pattern the next sign tells whether another one follows.  So
different values have different printed forms, whatever characters their literals are, and the same
goes for the records of rejected texts, each of which is a single line.

Main results:

* `StarPattern.Atom.selfDelimiting_describe`, `StarPattern.Pattern.selfDelimiting_describe`,
  `StarPattern.Parsed.selfDelimiting_describe`, `StarPattern.Language.selfDelimiting_describe`,
  `StarPattern.Engine.selfDelimiting_describe` — **printed forms are self-delimiting**;
* `StarPattern.Language.rejectionRecord_message_inj`,
  `StarPattern.Language.lineBreak_not_mem_rejectionRecord` — records of different texts differ, and
  each is **one line**;
* `StarPattern.printed_forms_are_unambiguous` — what follows for equality.
-/
import StarPattern.Engine
import StarPattern.Proofs.Equality
import StarPattern.Proofs.Language.Reading
import StarPattern.Proofs.Text.Quoted

set_option relaxedAutoImplicit false
set_option autoImplicit false

namespace StarPattern

variable {rep : Repertoire}

/-! ### Atoms -/

namespace Atom

theorem selfDelimiting_flag : SelfDelimiting flag := by
  intro a b rest later h
  cases a <;> cases b <;> simp_all [flag]

/-- The name of an atom, its opening bracket, and what is inside. -/
theorem describe_append (rep : Repertoire) (atom : Atom) (rest : Text) :
    atom.describe rep ++ rest =
      match atom.kind with
      | .wildcard => "Wildcard(".toList ++ (flag atom.repeatable ++ ')' :: rest)
      | .literal c => "Literal(".toList ++
          (Text.quoted rep [c] ++ (", ".toList ++ (flag atom.repeatable ++ ')' :: rest)))
      | .abstract => "Atom(".toList ++ (flag atom.repeatable ++ ')' :: rest) := by
  rcases atom with ⟨kind, repeatable⟩
  cases kind <;> simp [describe, kindName]

/-- The printed form of an atom begins with a letter. -/
theorem exists_describe_eq_cons (rep : Repertoire) (atom : Atom) :
    ∃ c rest, atom.describe rep = c :: rest ∧ c ≠ ']' := by
  rcases atom with ⟨kind, repeatable⟩
  cases kind <;> exact ⟨_, _, rfl, by decide⟩

theorem selfDelimiting_describe (rep : Repertoire) : SelfDelimiting (describe rep) := by
  intro first second rest later h
  rcases first with ⟨kind, repeatable⟩
  rcases second with ⟨kind', repeatable'⟩
  rw [describe_append, describe_append] at h
  -- different names begin with different letters
  cases kind with
  | wildcard =>
      cases kind' with
      | wildcard =>
          obtain ⟨rfl, hrest⟩ := selfDelimiting_flag (List.append_cancel_left h)
          exact ⟨rfl, (List.cons.inj hrest).2⟩
      | literal d => simp at h
      | abstract => simp at h
  | literal c =>
      cases kind' with
      | wildcard => simp at h
      | literal d =>
          obtain ⟨hraw, hinside⟩ :=
            Text.selfDelimiting_quoted rep (List.append_cancel_left h)
          obtain ⟨rfl, hrest⟩ := selfDelimiting_flag (List.append_cancel_left hinside)
          obtain rfl : c = d := List.singleton_inj.1 hraw
          exact ⟨rfl, (List.cons.inj hrest).2⟩
      | abstract => simp at h
  | abstract =>
      cases kind' with
      | wildcard => simp at h
      | literal d => simp at h
      | abstract =>
          obtain ⟨rfl, hrest⟩ := selfDelimiting_flag (List.append_cancel_left h)
          exact ⟨rfl, (List.cons.inj hrest).2⟩

end Atom

/-! ### Patterns -/

/-- Texts with a separator between them: each but the first one has it in front. -/
theorem intercalate_cons (separator first : Text) (others : List Text) :
    separator.intercalate (first :: others) = first ++ others.flatMap (separator ++ ·) := by
  induction others generalizing first with
  | nil => simp
  | cons second others ih =>
      rw [List.intercalate_cons_cons, ih, List.flatMap_cons, List.append_assoc, List.append_assoc]

namespace Pattern

/-- The closing brackets of a pattern tell that no other atom follows. -/
theorem flatMap_describe_inj {first second : List Atom} {rest later : Text}
    (h : first.flatMap (fun atom => ", ".toList ++ atom.describe rep) ++ ("])".toList ++ rest) =
      second.flatMap (fun atom => ", ".toList ++ atom.describe rep) ++ ("])".toList ++ later)) :
    first = second ∧ rest = later := by
  induction first generalizing second with
  | nil =>
      cases second with
      | nil => exact ⟨rfl, List.append_cancel_left h⟩
      | cons other second => simp at h
  | cons atom first ih =>
      cases second with
      | nil => simp at h
      | cons other second =>
          simp only [List.flatMap_cons, List.append_assoc] at h
          obtain ⟨rfl, htail⟩ := Atom.selfDelimiting_describe rep (List.append_cancel_left h)
          obtain ⟨rfl, hrest⟩ := ih (by simpa using htail)
          exact ⟨rfl, hrest⟩

theorem describe_eq (rep : Repertoire) (pattern : Pattern) :
    pattern.describe rep = "Pattern([".toList ++
      (", ".toList.intercalate (pattern.atoms.map (Atom.describe rep)) ++ "])".toList) := rfl

theorem describe_nil_append (rep : Repertoire) (rest : Text) :
    describe rep ⟨[]⟩ ++ rest = "Pattern([".toList ++ ("])".toList ++ rest) := by
  rw [describe_eq, List.map_nil, List.intercalate_nil, List.nil_append, List.append_assoc]

theorem describe_cons_append (rep : Repertoire) (atom : Atom) (atoms : List Atom) (rest : Text) :
    describe rep ⟨atom :: atoms⟩ ++ rest =
      "Pattern([".toList ++ (atom.describe rep ++
        (atoms.flatMap (fun atom => ", ".toList ++ atom.describe rep) ++
          ("])".toList ++ rest))) := by
  rw [describe_eq, List.map_cons, intercalate_cons, List.flatMap_map]
  simp only [List.append_assoc]

theorem selfDelimiting_describe (rep : Repertoire) : SelfDelimiting (describe rep) := by
  rintro ⟨first⟩ ⟨second⟩ rest later h
  cases first with
  | nil =>
      cases second with
      | nil =>
          rw [describe_nil_append, describe_nil_append] at h
          exact ⟨rfl, List.append_cancel_left (List.append_cancel_left h)⟩
      | cons other second =>
          obtain ⟨c, more, hc, hne⟩ := other.exists_describe_eq_cons rep
          rw [describe_nil_append, describe_cons_append, hc] at h
          exact absurd (List.cons.inj (List.append_cancel_left h)).1.symm hne
  | cons atom first =>
      cases second with
      | nil =>
          obtain ⟨c, more, hc, hne⟩ := atom.exists_describe_eq_cons rep
          rw [describe_nil_append, describe_cons_append, hc] at h
          exact absurd (List.cons.inj (List.append_cancel_left h)).1 hne
      | cons other second =>
          rw [describe_cons_append, describe_cons_append] at h
          obtain ⟨rfl, hothers⟩ := Atom.selfDelimiting_describe rep (List.append_cancel_left h)
          obtain ⟨rfl, hrest⟩ := flatMap_describe_inj hothers
          exact ⟨rfl, hrest⟩

end Pattern

namespace Parsed

/-- No pattern is printed as the invalid one. -/
theorem describe_valid_append_ne (rep : Repertoire) (pattern : Pattern) (rest later : Text) :
    (valid pattern).describe rep ++ rest ≠ invalid.describe rep ++ later := by
  intro h
  have hfirst : some 'P' = some 'I' := congrArg List.head? h
  cases hfirst

theorem selfDelimiting_describe (rep : Repertoire) : SelfDelimiting (describe rep) := by
  intro first second rest later h
  cases first with
  | invalid =>
      cases second with
      | invalid => exact ⟨rfl, List.append_cancel_left h⟩
      | valid q => exact absurd h.symm (describe_valid_append_ne rep q later rest)
  | valid p =>
      cases second with
      | invalid => exact absurd h (describe_valid_append_ne rep p rest later)
      | valid q =>
          obtain ⟨rfl, hrest⟩ := Pattern.selfDelimiting_describe rep h
          exact ⟨rfl, hrest⟩

end Parsed

/-! ### Languages, engines and records -/

theorem Language.describe_eq (rep : Repertoire) (language : Language) :
    language.describe rep = "Language(any=".toList ++ (Text.quoted rep [language.any] ++
      (", zero_or_more=".toList ++ (Text.quoted rep [language.zeroOrMore] ++ [')']))) := rfl

theorem Language.selfDelimiting_describe (rep : Repertoire) :
    SelfDelimiting (Language.describe rep) := by
  rintro ⟨any, zeroOrMore, differ⟩ ⟨any', zeroOrMore', differ'⟩ rest later h
  simp only [Language.describe_eq, List.append_assoc] at h
  obtain ⟨hany, hinside⟩ := Text.selfDelimiting_quoted rep (List.append_cancel_left h)
  obtain ⟨hzero, hrest⟩ := Text.selfDelimiting_quoted rep (List.append_cancel_left hinside)
  obtain rfl : any = any' := List.singleton_inj.1 hany
  obtain rfl : zeroOrMore = zeroOrMore' := List.singleton_inj.1 hzero
  exact ⟨rfl, List.append_cancel_left hrest⟩

theorem Engine.selfDelimiting_describe (rep : Repertoire) (engine : Engine) :
    SelfDelimiting (engine.describe rep) := by
  intro first second rest later h
  simp only [Engine.describe, List.append_assoc, List.cons_append] at h
  have hinside := (List.cons.inj (List.append_cancel_left h)).2
  obtain ⟨rfl, hrest⟩ := Parsed.selfDelimiting_describe rep hinside
  exact ⟨rfl, (List.cons.inj hrest).2⟩

namespace Language

variable {text first second : Text} {rejection rejection' : Rejection}

theorem rejectionRecord_message (rep : Repertoire) (text reason : Text) :
    (rejectionRecord rep text reason).message =
      "rejected pattern ".toList ++ (text.quoted rep ++ (": ".toList ++ reason)) := rfl

/-- The record of a rejected text begins with the quoted text. -/
theorem rejectionRecord_message_inj {reason reason' : Text}
    (h : (rejectionRecord rep first reason).message =
      (rejectionRecord rep second reason').message) : first = second := by
  rw [rejectionRecord_message, rejectionRecord_message] at h
  exact (Text.selfDelimiting_quoted rep (List.append_cancel_left h)).1

theorem isVisible_of_mem_reason (i : Nat) : ∀ c ∈ standard.reason i, Text.IsVisible c := by
  unfold reason
  split <;> exact Text.isVisible_of_all (by decide)

/-- Around the quoted text the record of a rejected text has visible characters only. -/
theorem visible_or_quoted_of_mem_rejectionRecord (rep : Repertoire)
    (hr : standard.parse text = .error rejection) :
    ∀ c ∈ (rejectionRecord rep text rejection.reason).message,
      Text.IsVisible c ∨ c ∈ text.quoted rep := by
  obtain ⟨i, -, rfl⟩ := exists_firstMisplaced_of_rejected hr
  have hwords : ∀ c ∈ "rejected pattern ".toList, Text.IsVisible c :=
    Text.isVisible_of_all (by decide)
  have hcolon : ∀ c ∈ ": ".toList, Text.IsVisible c := Text.isVisible_of_all (by decide)
  rw [rejectionRecord_message]
  simp only [List.forall_mem_append]
  exact ⟨fun c hc => Or.inl (hwords c hc), fun c hc => Or.inr hc,
    fun c hc => Or.inl (hcolon c hc), fun c hc => Or.inl (isVisible_of_mem_reason i c hc)⟩

theorem newline_not_mem_rejectionRecord (rep : Repertoire)
    (hr : standard.parse text = .error rejection) :
    '\n' ∉ (rejectionRecord rep text rejection.reason).message := by
  intro hmem
  rcases visible_or_quoted_of_mem_rejectionRecord rep hr _ hmem with hvisible | hquoted
  · exact absurd hvisible (by decide)
  · exact text.newline_not_mem_quoted rep hquoted

/-- The record of a rejected text is one line, by any of the line breaks. -/
theorem lineBreak_not_mem_rejectionRecord (h : rep.IsOneLine)
    (hr : standard.parse text = .error rejection) :
    ∀ c ∈ (rejectionRecord rep text rejection.reason).message, c ∉ Text.lineBreaks := by
  intro c hc
  rcases visible_or_quoted_of_mem_rejectionRecord rep hr c hc with hvisible | hquoted
  · exact h.not_lineBreak (Or.inl hvisible)
  · exact h.lineBreak_not_mem_quoted text c hquoted

theorem log_eq_of_rejected (hr : standard.parse text = .error rejection) (rep : Repertoire) :
    standard.log rep text = [rejectionRecord rep text rejection.reason] := by
  rw [log, hr]

end Language

/-! ### Equality -/

/-- **Printed forms are unambiguous**, whatever characters the repertoire shows.  Patterns without
abstract atoms have one printed form just if they are equal, and none is printed as the invalid
pattern; languages have one just if their signs are the same, and engines of a kind just if their
patterns are equal.  A rejected text leaves one record, with the quoted text and the reason; records
of different texts are different; and for a repertoire that shows the visible ASCII characters and
no line break no record has a line break in it. -/
theorem printed_forms_are_unambiguous (rep : Repertoire) :
    (∀ p q : Pattern, p.IsConcrete → q.IsConcrete →
      (p.describe rep = q.describe rep ↔ p.same q = true)) ∧
    (∀ p : Pattern, p.describe rep ≠ Parsed.invalid.describe rep) ∧
    (∀ l k : Language, l.describe rep = k.describe rep ↔
      l.any = k.any ∧ l.zeroOrMore = k.zeroOrMore) ∧
    (∀ (engine : Engine) (first second : Parsed), first.IsConcrete → second.IsConcrete →
      (engine.describe rep first = engine.describe rep second ↔ first.same second = true)) ∧
    (∀ (first second : Text) (rejection rejection' : Rejection),
      Language.standard.parse first = .error rejection →
      Language.standard.parse second = .error rejection' →
      ∃ record record' : LogRecord,
        Language.standard.log rep first = [record] ∧
        Language.standard.log rep second = [record'] ∧
        record.message = "rejected pattern ".toList ++
          (first.quoted rep ++ (": ".toList ++ rejection.reason)) ∧
        (record.message = record'.message ↔ first = second) ∧
        '\n' ∉ record.message ∧
        (rep.IsOneLine → ∀ c ∈ record.message, c ∉ Text.lineBreaks)) := by
  refine ⟨fun p q hp hq => ?_, fun p h => ?_, fun l k => ?_, fun engine first second hf hs => ?_,
    fun first second rejection rejection' hf hs => ?_⟩
  · rw [(Pattern.selfDelimiting_describe rep).eq_iff, Pattern.same_iff_eq hp hq]
  · exact Parsed.describe_valid_append_ne rep p [] [] (congrArg (· ++ []) h)
  · rw [(Language.selfDelimiting_describe rep).eq_iff]
    rcases l with ⟨any, zeroOrMore, differ⟩
    rcases k with ⟨any', zeroOrMore', differ'⟩
    rw [Language.mk.injEq]
  · rw [(Engine.selfDelimiting_describe rep engine).eq_iff, Parsed.same_iff_eq hf hs]
  · refine ⟨_, _, Language.log_eq_of_rejected hf rep, Language.log_eq_of_rejected hs rep, rfl,
      ⟨Language.rejectionRecord_message_inj, ?_⟩, Language.newline_not_mem_rejectionRecord rep hf,
      fun hrep => Language.lineBreak_not_mem_rejectionRecord hrep hf⟩
    rintro rfl
    obtain rfl : rejection = rejection' := Except.error.inj (hf.symm.trans hs)
    rfl

/-- Literals that look like the words between them: a quote, a comma and a bracket.  A text with a
line break in it, and one with the letters that this line break is written with, are rejected in one
line each, and in different ones. -/
theorem records_of_a_line_break :
    (Pattern.describe .printable ⟨[.literal '\'' true, .literal ',' false]⟩ ≠
      Pattern.describe .printable ⟨[.literal '\'' true, .literal ')' false]⟩) ∧
    ∃ record record' : LogRecord,
      Language.standard.log .printable ['*', '\n'] = [record] ∧
      Language.standard.log .printable ['*', '\\', 'n'] = [record'] ∧
      record.message ≠ record'.message ∧ ∀ c ∈ record.message, c ∉ Text.lineBreaks := by
  obtain ⟨hpatterns, -, -, -, hrecords⟩ := printed_forms_are_unambiguous .printable
  constructor
  · rw [Ne, hpatterns _ _ (by decide) (by decide)]
    decide
  · obtain ⟨record, record', hrecord, hrecord', -, hsame, -, hline⟩ :=
      hrecords ['*', '\n'] ['*', '\\', 'n'] _ _ rfl rfl
    refine ⟨record, record', hrecord, hrecord', ?_, hline Repertoire.printable_isOneLine⟩
    rw [Ne, hsame]
    decide

end StarPattern
